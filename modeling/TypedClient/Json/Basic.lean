import TypedClient.Number.Double
import TypedClient.Text.CodePoint

/-
  This file defines decoded JSON values.  An integer literal
  stays exact, any other number is a double, and text may hold
  surrogates that stand alone.  The members of an object are
  listed in the order in which their keys came first.

  Key definitions include:
    * `Json`
    * `Json.insertMember`
    * `Json.sortMembers`
-/

namespace TypedClient

/- A decoded JSON value. -/
inductive Json where
  | null
  | bool (b : Bool)
  | int (n : Int)
  | double (x : Double)
  | string (t : RawText)
  | array (items : List Json)
  | object (members : List (RawText × Json))
deriving Inhabited

namespace Json

/-
  Members with the value of a key replaced, or with a new member
  at the end.
-/
def insertMember
    (members : List (RawText × Json))
    (key : RawText)
    (value : Json) : List (RawText × Json) :=
  match members with
  | [] => [(key, value)]
  | m :: ms =>
      if m.1 = key then (key, value) :: ms
      else m :: insertMember ms key value

/- The members of an object for key-value pairs, the last wins. -/
def ofPairs
    (pairs : List (RawText × Json)) : List (RawText × Json) :=
  pairs.foldl (fun ms p => insertMember ms p.1 p.2) []

/- Members in the order of their keys. -/
def sortMembers
    (members : List (RawText × Json)) : List (RawText × Json) :=
  members.mergeSort fun a b => RawText.ble a.1 b.1

end Json

end TypedClient
