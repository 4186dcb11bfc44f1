import TypedClient.Json.Basic

/-
  This file defines the shapes of JSON values: primitives,
  sequences, mappings of text keys and references to records.

  Key definitions include:
    * `Shape.Primitive`
    * `Shape.Primitive.ofInteger`
    * `Shape.Primitive.ofDouble`
    * `Shape`
    * `Shape.render`
    * `Shape.Field`
    * `Shape.Record`
-/

namespace TypedClient

------------------------------------------------------------
-- Primitives
------------------------------------------------------------

/- The shapes of scalars; `any` is that of null and of nothing. -/
inductive Shape.Primitive where
  | bool
  | int
  | float
  | text
  | any
deriving DecidableEq, Repr

namespace Shape.Primitive

/- All primitives. -/
def all : List Primitive :=
  [bool, int, float, text, any]

/- The annotation of a primitive. -/
def render : Primitive → String
  | bool => "bool"
  | int => "int"
  | float => "float"
  | text => "str"
  | any => "Any"

/- The primitive of an annotation. -/
def ofText? (s : String) : Option Primitive :=
  all.find? fun p => p.render = s

/- The bound of the integers of 64 bits. -/
def wordBound : Int :=
  Nat.pow 2 63

/- The primitive of an integer: one of 64 bits stays exact. -/
def ofInteger (n : Int) : Primitive :=
  if -wordBound ≤ n ∧ n < wordBound then int else float

/- The primitive of a double, which may be a whole number. -/
def ofDouble (x : Double) : Primitive :=
  match x.integer? with
  | some n => ofInteger n
  | none => float

end Shape.Primitive

------------------------------------------------------------
-- Shapes
------------------------------------------------------------

/-
  The shape of a value: a scalar of some kind, a sequence of
  items of one shape, a mapping of texts to values of one shape,
  or the record of a name.
-/
inductive Shape where
  | primitive (p : Shape.Primitive)
  | list (item : Shape)
  | map (value : Shape)
  | record (name : String)
deriving DecidableEq, Repr

namespace Shape

/- The shape of which nothing is known. -/
def untyped : Shape :=
  primitive .any

/- The annotation of a shape. -/
def render : Shape → String
  | primitive p => p.render
  | list item => "list[" ++ item.render ++ "]"
  | map value => "dict[str, " ++ value.render ++ "]"
  | record name => name

/- The record that a shape refers to itself. -/
def recordName? : Shape → Option String
  | record name => some name
  | _ => none

------------------------------------------------------------
-- Records
------------------------------------------------------------

/-
  A field of a record: its name in Pascal case, its attribute in
  emitted code, the shape of its values and its key in JSON.
-/
structure Field where
  name : String
  attr : String
  shape : Shape
  key : RawText
deriving DecidableEq, Repr

/- The shape of an object with a fixed set of keys. -/
structure Record where
  name : String
  fields : List Field
deriving DecidableEq, Repr

end Shape

end TypedClient
