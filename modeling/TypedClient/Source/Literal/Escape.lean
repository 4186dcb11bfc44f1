import TypedClient.Source.Token.Basic

/-
  This file finds escapes in literals that stand for nothing.  The
  place of a bad escape is counted as if every character outside
  ASCII were written by an escape of ten characters.

  Key definitions include:
    * `Source.Escape.textMistake?`
    * `Source.Escape.bytesMistake?`
-/

namespace TypedClient

namespace Source

namespace Escape

------------------------------------------------------------
-- Places
------------------------------------------------------------

/- The width of a character in the count of places. -/
def width (c : Char) : Nat :=
  if c.toNat < 128 then 1 else 10

/- Whether a character is a hexadecimal digit. -/
def isHexDigit (c : Char) : Bool :=
  c.isDigit || ('a' ≤ c && c ≤ 'f') || ('A' ≤ c && c ≤ 'F')

/- The value of a hexadecimal digit. -/
def hexValue (c : Char) : Nat :=
  if c.isDigit then c.toNat - 48
  else if c.toNat < 97 then c.toNat - 55
  else c.toNat - 87

/- The number that hexadecimal digits write. -/
def hexNumber (cs : List Char) : Nat :=
  cs.foldl (fun n c => n * 16 + hexValue c) 0

/- The letters of numeric escapes and their digits. -/
def numeric : List (Char × Nat) :=
  [('x', 2), ('u', 4), ('U', 8)]

------------------------------------------------------------
-- Text
------------------------------------------------------------

/- The message of an escape between two places of a text. -/
def textMessage (first past : Nat) (reason : String) : String :=
  "(unicode error) 'unicodeescape' codec can't decode bytes in " ++
    "position " ++ toString first ++ "-" ++ toString (past - 1) ++
    ": " ++ reason

/- The reason of an escape with too few digits. -/
def truncated (letter : Char) (count : Nat) : String :=
  "truncated \\" ++ letter.toString ++
    String.ofList (List.replicate count 'X') ++ " escape"

/- What is wrong with a numeric escape, from its digits on. -/
def numericMistake?
    (place : Nat)
    (letter : Char)
    (count : Nat)
    (cs : List Char) : Option String :=
  let digits := (cs.take count).takeWhile isHexDigit
  let past := place + 2 + digits.length
  if digits.length < count then
    some (textMessage place past (truncated letter count))
  else if 0x10FFFF < hexNumber digits then
    some (textMessage place past "illegal Unicode character")
  else none

/- What is wrong with an escape by a name, from its brace on. -/
def namedMistake? (place : Nat) (cs : List Char) : Option String :=
  let malformed (past : Nat) : Option String :=
    some (textMessage place past "malformed \\N character escape")
  match cs with
  | '\x7b' :: cs =>
      let name := cs.takeWhile (· ≠ '\x7d')
      let past := name.foldl (fun n c => n + width c) (place + 3)
      if name.length = cs.length then malformed past
      else if name.isEmpty then malformed past
      else none
  | _ => malformed (place + 2)

/- What is wrong with an escape of a letter. -/
def letterMistake?
    (place : Nat)
    (letter : Char)
    (cs : List Char) : Option String :=
  match numeric.lookup letter with
  | some count => numericMistake? place letter count cs
  | none =>
      if letter = 'N' then namedMistake? place cs else none

/- The first bad escape of a text from a place on. -/
def textMistakeFrom (place : Nat) : List Char → Option String
  | [] => none
  | '\\' :: c :: cs =>
      (letterMistake? place c cs).or
        (textMistakeFrom
          (place + (if c.toNat < 128 then 2 else 16)) cs)
  | c :: cs => textMistakeFrom (place + width c) cs

/- What is wrong with the escapes of a text. -/
def textMistake? (body : List Char) : Option String :=
  textMistakeFrom 0 body

------------------------------------------------------------
-- Bytes
------------------------------------------------------------

/- The first bad escape of bytes from a place on. -/
def bytesMistakeFrom (place : Nat) : List Char → Option String
  | [] => none
  | '\\' :: 'x' :: cs =>
      if ((cs.take 2).takeWhile isHexDigit).length < 2 then
        some ("(value error) invalid \\x escape at position " ++
          toString place)
      else bytesMistakeFrom (place + 2) cs
  | '\\' :: _ :: cs => bytesMistakeFrom (place + 2) cs
  | _ :: cs => bytesMistakeFrom (place + 1) cs

/- What is wrong with the escapes of bytes. -/
def bytesMistake? (body : List Char) : Option String :=
  bytesMistakeFrom 0 body

end Escape

end Source

end TypedClient
