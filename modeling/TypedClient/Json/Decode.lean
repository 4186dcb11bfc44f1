import TypedClient.Json.Basic
import TypedClient.Text.Encoding

/-
  This file reads JSON.  Besides the standard grammar it accepts
  the words `NaN`, `Infinity` and `-Infinity`; it limits the
  digits of an integer and the nesting of containers.

  Key definitions include:
    * `Json.Failure`
    * `Json.maxDigits`
    * `Json.maxDepth`
    * `Json.decode`
    * `Json.decodeBytes`
-/

namespace TypedClient

namespace Json

------------------------------------------------------------
-- Failures
------------------------------------------------------------

/- Why a text is not read. -/
inductive Failure where
  | malformed
  | tooManyDigits
  | tooDeep
deriving DecidableEq, Repr

/- The longest integer that is read, in digits. -/
def maxDigits : Nat :=
  4300

/- The deepest nesting of containers that is read. -/
def maxDepth : Nat :=
  980

/- A reader's answer: what it read and what is left. -/
abbrev Reading (α : Type) :=
  Except Failure (α × RawText)

------------------------------------------------------------
-- White space
------------------------------------------------------------

/- Text behind the white space of JSON. -/
def skipBlanks : RawText → RawText
  | .scalar c :: t =>
      if c = ' ' ∨ c = '\n' ∨ c = '\r' ∨ c = '\t' then
        skipBlanks t
      else .scalar c :: t
  | t => t

------------------------------------------------------------
-- Strings
------------------------------------------------------------

/- The value of a hexadecimal digit. -/
def hexValue? : CodePoint → Option Nat
  | .scalar c =>
      if c.isDigit then some (c.toNat - 48)
      else if 'a' ≤ c ∧ c ≤ 'f' then some (c.toNat - 87)
      else if 'A' ≤ c ∧ c ≤ 'F' then some (c.toNat - 55)
      else none
  | .surrogate _ => none

/- The value of four hexadecimal digits. -/
def hexUnit? (a b c d : CodePoint) : Option Nat :=
  match hexValue? a, hexValue? b, hexValue? c, hexValue? d with
  | some a, some b, some c, some d =>
      some (a * 4096 + b * 256 + c * 16 + d)
  | _, _, _, _ => none

/- The character of an escape of one letter. -/
def escape? (c : Char) : Option Char :=
  if c = '"' ∨ c = '\\' ∨ c = '/' then some c
  else if c = 'b' then some '\x08'
  else if c = 'f' then some '\x0c'
  else if c = 'n' then some '\n'
  else if c = 'r' then some '\r'
  else if c = 't' then some '\t'
  else none

/-
  Text read so far, backwards, with an escaped unit behind it.
  With `isOpen` the last code point is an escaped first half,
  which joins a second half.
-/
def pushUnit
    (read : RawText)
    (isOpen : Bool)
    (u : Nat) : RawText :=
  match isOpen, read with
  | true, h :: t =>
      if Text.isLowHalf u then
        (CodePoint.ofNat? (Text.joinPair h.toNat u)).toList ++ t
      else (CodePoint.ofNat? u).toList ++ h :: t
  | _, t => (CodePoint.ofNat? u).toList ++ t

/- The rest of a string, behind its opening quote. -/
def stringFrom
    (read : RawText)
    (isOpen : Bool) : RawText → Reading RawText
  | [] => .error .malformed
  | .scalar '"' :: t => .ok (read.reverse, t)
  | .scalar '\\' :: .scalar 'u' :: a :: b :: c :: d :: t =>
      match hexUnit? a b c d with
      | some u =>
          stringFrom (pushUnit read isOpen u)
            (Text.isHighHalf u) t
      | none => .error .malformed
  | .scalar '\\' :: .scalar e :: t =>
      match escape? e with
      | some c => stringFrom (.scalar c :: read) false t
      | none => .error .malformed
  | .scalar '\\' :: _ => .error .malformed
  | p :: t =>
      if p.toNat < 32 then .error .malformed
      else stringFrom (p :: read) false t

------------------------------------------------------------
-- Numbers
------------------------------------------------------------

/- The values of the digits that text starts with. -/
def digitsFrom (read : List Nat) : RawText → List Nat × RawText
  | .scalar c :: t =>
      if c.isDigit then digitsFrom ((c.toNat - 48) :: read) t
      else (read.reverse, .scalar c :: t)
  | t => (read.reverse, t)

/- The number that digits write. -/
def ofDigits (digits : List Nat) : Nat :=
  digits.foldl (fun n d => n * 10 + d) 0

/- The digits before the point: a zero stands alone. -/
def wholePart : RawText → List Nat × RawText
  | .scalar '0' :: t => ([0], t)
  | t => digitsFrom [] t

/- The digits behind a point, if there are any. -/
def fractionPart : RawText → List Nat × RawText
  | .scalar '.' :: t =>
      match digitsFrom [] t with
      | ([], _) => ([], .scalar '.' :: t)
      | found => found
  | t => ([], t)

/- The digits of an exponent behind its mark. -/
def exponentDigits (negative : Bool) (t : RawText) :
    Option (Int × RawText) :=
  match digitsFrom [] t with
  | ([], _) => none
  | (ds, r) => some (Double.signed negative (ofDigits ds), r)

/- The exponent that text starts with, if it is complete. -/
def exponentPart : RawText → Option (Int × RawText)
  | .scalar m :: t =>
      if m = 'e' ∨ m = 'E' then
        match t with
        | .scalar '-' :: t => exponentDigits true t
        | .scalar '+' :: t => exponentDigits false t
        | t => exponentDigits false t
      else none
  | _ => none

/- The number that text starts with, behind its sign. -/
def numberFrom (negative : Bool) (t : RawText) : Reading Json :=
  match wholePart t with
  | ([], _) => .error .malformed
  | (whole, t) =>
      let fraction := fractionPart t
      let decimal (e : Int) : Json :=
        .double (Double.ofDecimal negative
          (ofDigits (whole ++ fraction.1))
          (e - fraction.1.length))
      match exponentPart fraction.2 with
      | some (e, r) => .ok (decimal e, r)
      | none =>
          if fraction.1.isEmpty then
            if maxDigits < whole.length then
              .error .tooManyDigits
            else
              .ok (.int (Double.signed negative
                (ofDigits whole)), fraction.2)
          else .ok (decimal 0, fraction.2)

------------------------------------------------------------
-- Words
------------------------------------------------------------

/- Text behind a word, if it starts with it. -/
def behind? (word : String) (t : RawText) : Option RawText :=
  let w := RawText.ofString word
  if t.take w.length = w then some (t.drop w.length) else none

/- The words that stand for values. -/
def words : List (String × Json) :=
  [("null", .null), ("true", .bool true), ("false", .bool false),
    ("NaN", .double .nan), ("Infinity", .double (.infinite false)),
    ("-Infinity", .double (.infinite true))]

/- The value of the word that text starts with. -/
def wordFrom? (t : RawText) : Option (Json × RawText) :=
  words.findSome? fun w => (behind? w.1 t).map (w.2, ·)

/- The scalar other than a string that text starts with. -/
def scalarFrom (t : RawText) : Reading Json :=
  match wordFrom? t with
  | some found => .ok found
  | none =>
      match t with
      | .scalar '-' :: t => numberFrom true t
      | t => numberFrom false t

------------------------------------------------------------
-- Values
------------------------------------------------------------

mutual

/-
  The value that text starts with.  `depth` is the number of
  containers that may still be opened; `fuel` bounds the calls.
-/
def valueFrom
    (fuel depth : Nat)
    (t : RawText) : Reading Json :=
  match fuel with
  | 0 => .error .malformed
  | fuel + 1 =>
      match t with
      | .scalar '"' :: t =>
          match stringFrom [] false t with
          | .error e => .error e
          | .ok (s, t) => .ok (.string s, t)
      | .scalar '[' :: t =>
          match depth with
          | 0 => .error .tooDeep
          | depth + 1 =>
              match skipBlanks t with
              | .scalar ']' :: t => .ok (.array [], t)
              | t => itemsFrom fuel depth [] t
      | .scalar '{' :: t =>
          match depth with
          | 0 => .error .tooDeep
          | depth + 1 =>
              match skipBlanks t with
              | .scalar '}' :: t => .ok (.object [], t)
              | t => membersFrom fuel depth [] t
      | t => scalarFrom t

/- The rest of an array; `read` holds its items backwards. -/
def itemsFrom
    (fuel depth : Nat)
    (read : List Json)
    (t : RawText) : Reading Json :=
  match fuel with
  | 0 => .error .malformed
  | fuel + 1 =>
      match valueFrom fuel depth t with
      | .error e => .error e
      | .ok (v, t) =>
          match skipBlanks t with
          | .scalar ']' :: t => .ok (.array (v :: read).reverse, t)
          | .scalar ',' :: t =>
              itemsFrom fuel depth (v :: read) (skipBlanks t)
          | _ => .error .malformed

/- The rest of an object; `read` holds its pairs backwards. -/
def membersFrom
    (fuel depth : Nat)
    (read : List (RawText × Json))
    (t : RawText) : Reading Json :=
  match fuel with
  | 0 => .error .malformed
  | fuel + 1 =>
      match t with
      | .scalar '"' :: t =>
          match stringFrom [] false t with
          | .error e => .error e
          | .ok (k, t) =>
              match skipBlanks t with
              | .scalar ':' :: t =>
                  match valueFrom fuel depth (skipBlanks t) with
                  | .error e => .error e
                  | .ok (v, t) =>
                      match skipBlanks t with
                      | .scalar '}' :: t =>
                          .ok (.object
                            (ofPairs ((k, v) :: read).reverse), t)
                      | .scalar ',' :: t =>
                          membersFrom fuel depth
                            ((k, v) :: read) (skipBlanks t)
                      | _ => .error .malformed
              | _ => .error .malformed
      | _ => .error .malformed

end

------------------------------------------------------------
-- Texts
------------------------------------------------------------

/- The value that a text writes. -/
def decode (t : RawText) : Except Failure Json :=
  match valueFrom (2 * t.length + 2) maxDepth (skipBlanks t) with
  | .error e => .error e
  | .ok (v, t) =>
      if (skipBlanks t).isEmpty then .ok v
      else .error .malformed

/- The value that bytes in a Unicode encoding write. -/
def decodeBytes (bytes : Text.Bytes) : Except Failure Json :=
  match Text.decode? bytes with
  | some t => decode t
  | none => .error .malformed

end Json

end TypedClient
