import TypedClient.Json.Basic
import TypedClient.Text.Encoding

/-
  This file defines decoded documents, whichever format they
  were written in.  Keys of a mapping may be any scalars; two
  keys that are equal as values are one key.

  Key definitions include:
    * `Document`
    * `Document.Moment`
    * `Document.sameKey`
    * `Document.insertEntry`
    * `Document.find?`
    * `Document.isBlank`
    * `Document.ofJson`
-/

namespace TypedClient

------------------------------------------------------------
-- Points in time
------------------------------------------------------------

/- A day of the calendar. -/
structure Document.Day where
  year : Nat
  month : Nat
  day : Nat
deriving DecidableEq, Repr

/-
  A time of a day, with its distance from universal time in
  minutes if that is known.
-/
structure Document.Moment where
  day : Document.Day
  hour : Nat
  minute : Nat
  second : Nat
  micros : Nat
  offset : Option Int
deriving DecidableEq, Repr

/- The number of a day, counted through all years. -/
def Document.Day.ordinal (d : Day) : Nat :=
  let before :=
    [0, 31, 59, 90, 120, 151, 181, 212, 243, 273, 304, 334]
  let isLeap :=
    d.year % 4 = 0 && (d.year % 100 ≠ 0 || d.year % 400 = 0)
  let past := d.year - 1
  365 * d.year + past / 4 - past / 100 + past / 400 +
    before.getD (d.month - 1) 0 +
    (if isLeap && 2 < d.month then 1 else 0) + d.day

/- The minutes of universal time up to a time of a day. -/
def Document.Moment.minutes (m : Moment) (offset : Int) : Int :=
  (m.day.ordinal * 24 + m.hour) * 60 + m.minute - offset

/-
  Whether two times are the same point in time.  If the distance
  from universal time is known of one of them only, they are not.
-/
def Document.Moment.same (m n : Moment) : Bool :=
  match m.offset, n.offset with
  | none, none => m = n
  | some a, some b =>
      m.minutes a = n.minutes b && m.second = n.second &&
        m.micros = n.micros
  | _, _ => false

------------------------------------------------------------
-- Documents
------------------------------------------------------------

/-
  A decoded document.  A collection that is a part of itself is
  a knot: knots of one mark are the same collection, written out
  only so far.
-/
inductive Document where
  | null
  | bool (b : Bool)
  | int (n : Int)
  | double (x : Double)
  | text (t : RawText)
  | bytes (bs : Text.Bytes)
  | day (d : Document.Day)
  | moment (m : Document.Moment)
  | list (items : List Document)
  | pairs (entries : List (Document × Document))
  | set (items : List Document)
  | mapping (entries : List (Document × Document))
  | knot (mark : Nat) (d : Document)
deriving Inhabited

namespace Document

/- The text of a string. -/
def ofString (s : String) : Document :=
  text (RawText.ofString s)

------------------------------------------------------------
-- Equality of keys
------------------------------------------------------------

/- The integer that a key is equal to, if there is one. -/
def integer? : Document → Option Int
  | bool b => some (if b then 1 else 0)
  | int n => some n
  | double x => x.integer?
  | _ => none

/- Whether two keys are equal as values. -/
def sameKey : Document → Document → Bool
  | null, null => true
  | text s, text t => s = t
  | bytes s, bytes t => s = t
  | day d, day e => d = e
  | moment m, moment n => m.same n
  | double x, double y => x = y || (x.isZero && y.isZero)
  | a, b =>
      match a.integer?, b.integer? with
      | some m, some n => m = n
      | _, _ => false

------------------------------------------------------------
-- Mappings
------------------------------------------------------------

/-
  Entries with the value of a key replaced, or with a new entry
  at the end.
-/
def insertEntry
    (entries : List (Document × Document))
    (key value : Document) : List (Document × Document) :=
  match entries with
  | [] => [(key, value)]
  | e :: es =>
      if e.1.sameKey key then (e.1, value) :: es
      else e :: insertEntry es key value

/- The entries of key-value pairs, where the last value wins. -/
def ofEntries
    (pairs : List (Document × Document)) :
    List (Document × Document) :=
  pairs.foldl (fun es p => insertEntry es p.1 p.2) []

/- The entries of a mapping. -/
def entries? : Document → Option (List (Document × Document))
  | mapping es => some es
  | knot _ d => d.entries?
  | _ => none

/- The items of a list. -/
def items? : Document → Option (List Document)
  | list items => some items
  | knot _ d => d.items?
  | _ => none

/- The value of a text key. -/
def find?
    (entries : List (Document × Document))
    (key : String) : Option Document :=
  (entries.find? fun e => e.1.sameKey (ofString key)).map (·.2)

------------------------------------------------------------
-- Absence
------------------------------------------------------------

/- Whether a document is empty, zero, false or null. -/
def isBlank : Document → Bool
  | null => true
  | bool b => !b
  | int n => n = 0
  | double x => x.isZero
  | text t => t.isEmpty
  | bytes bs => bs.isEmpty
  | list items => items.isEmpty
  | pairs es => es.isEmpty
  | set items => items.isEmpty
  | mapping es => es.isEmpty
  | knot _ d => d.isBlank
  | _ => false

------------------------------------------------------------
-- JSON
------------------------------------------------------------

mutual

/- The document of a JSON value. -/
def ofJson : Json → Document
  | .null => null
  | .bool b => bool b
  | .int n => int n
  | .double x => double x
  | .string t => text t
  | .array items => list (ofItems items)
  | .object members => mapping (ofMembers members)

/- The documents of the items of an array. -/
def ofItems : List Json → List Document
  | [] => []
  | v :: vs => ofJson v :: ofItems vs

/- The entries of the members of an object. -/
def ofMembers :
    List (RawText × Json) → List (Document × Document)
  | [] => []
  | (k, v) :: ms => (text k, ofJson v) :: ofMembers ms

end

end Document

end TypedClient
