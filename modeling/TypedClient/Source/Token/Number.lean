/-
  This file reads numbers of source.  An underscore may stand
  between two digits, and no letter may stand behind a number
  unless it starts one of a few keywords.

  Key definitions include:
    * `Source.isWordStart`
    * `Source.isWordPart`
    * `Source.Number.Radix`
    * `Source.Number.read`
-/

namespace TypedClient

namespace Source

------------------------------------------------------------
-- Words
------------------------------------------------------------

/-
  Whether a character may start a word.  Which characters outside
  ASCII may do so is asked when the word is read.
-/
def isWordStart (c : Char) : Bool :=
  c.isAlpha || c == '_' || 127 < c.toNat

/- Whether a character may stand in a word. -/
def isWordPart (c : Char) : Bool :=
  c.isAlphanum || c == '_' || 127 < c.toNat

namespace Number

/- The rest of a text behind a number, or what is wrong with it. -/
abbrev Reading :=
  Except String (List Char)

------------------------------------------------------------
-- Ends
------------------------------------------------------------

/- The mistake of a number that is not well written. -/
def badLiteral (kind : String) : String :=
  "invalid " ++ kind ++ " literal"

/- The keywords that may stand directly behind a number. -/
def followers : List String :=
  ["and", "else", "for", "not", "or"]

/- The starts of keywords that may stand behind a number. -/
def followerStarts : List (List Char) :=
  [['i', 'f'], ['i', 'n'], ['i', 's']]

/- Whether a text may stand directly behind a number. -/
def mayFollow (cs : List Char) : Bool :=
  String.ofList (cs.takeWhile isWordPart) ∈ followers ||
    followerStarts.any fun s => s.isPrefixOf cs

/-
  The end of a number.  What stands outside ASCII is left to the
  word that it belongs to.
-/
def finish (kind : String) (cs : List Char) : Reading :=
  let isGlued :=
    match cs with
    | c :: _ => c.isAlphanum || c == '_'
    | [] => false
  if isGlued && !mayFollow cs then .error (badLiteral kind)
  else .ok cs

------------------------------------------------------------
-- Decimal numbers
------------------------------------------------------------

/- The kind of a decimal number. -/
def decimal : String :=
  "decimal"

/- The rest behind digits, of which one is read. -/
def digits : List Char → Reading
  | '_' :: c :: cs =>
      if c.isDigit then digits cs else .error (badLiteral decimal)
  | c :: cs => if c.isDigit then digits cs else .ok (c :: cs)
  | [] => .ok []

/- The rest behind an imaginary unit. -/
def imaginary (cs : List Char) : Reading :=
  finish "imaginary" cs

/- The rest behind what may stand after all digits. -/
def unit (cs : List Char) : Reading :=
  match cs with
  | 'j' :: cs => imaginary cs
  | 'J' :: cs => imaginary cs
  | cs => finish decimal cs

/- The rest behind an exponent, from its letter on. -/
def exponent (e : Char) (cs : List Char) : Reading :=
  let signed (cs : List Char) : Reading :=
    match cs with
    | c :: cs =>
        if c.isDigit then digits cs >>= unit
        else .error (badLiteral decimal)
    | [] => .error (badLiteral decimal)
  match cs with
  | '+' :: cs => signed cs
  | '-' :: cs => signed cs
  | c :: cs =>
      if c.isDigit then digits cs >>= unit
      else finish decimal (e :: c :: cs)
  | [] => finish decimal [e]

/- The rest behind a mantissa. -/
def power (cs : List Char) : Reading :=
  match cs with
  | 'e' :: cs => exponent 'e' cs
  | 'E' :: cs => exponent 'E' cs
  | cs => unit cs

/- The rest behind a point. -/
def fraction (cs : List Char) : Reading :=
  match cs with
  | c :: ds =>
      if c.isDigit then digits ds >>= power else power (c :: ds)
  | [] => power []

/- The rest behind the digits in front of a point. -/
def whole (cs : List Char) : Reading :=
  match cs with
  | '.' :: cs => fraction cs
  | cs => power cs

------------------------------------------------------------
-- Zeros
------------------------------------------------------------

/- The rest behind zeros, of which one is read. -/
def zeros : List Char → Reading
  | '_' :: c :: cs =>
      if c = '0' then zeros cs
      else if c.isDigit then .ok (c :: cs)
      else .error (badLiteral decimal)
  | '0' :: cs => zeros cs
  | cs => .ok cs

/- The mistake of a number that starts with a zero. -/
def leadingZeros : String :=
  "leading zeros in decimal integer literals are not " ++
    "permitted; use an 0o prefix for octal integers"

/- The rest behind a number that starts with a zero. -/
def afterZero (cs : List Char) : Reading :=
  let isReal (cs : List Char) : Bool :=
    match cs with
    | c :: _ => c ∈ ['.', 'e', 'E', 'j', 'J']
    | [] => false
  zeros cs >>= fun cs =>
    match cs with
    | c :: ds =>
        if c.isDigit then
          digits ds >>= fun rest =>
            if isReal rest then whole rest
            else .error leadingZeros
        else whole cs
    | [] => .ok []

------------------------------------------------------------
-- Other radixes
------------------------------------------------------------

/- A radix that a letter announces. -/
structure Radix where
  kind : String
  isDigit : Char → Bool

/- The radix of a letter. -/
def radix? (c : Char) : Option Radix :=
  if c = 'x' ∨ c = 'X' then
    some ⟨"hexadecimal", fun c =>
      c.isDigit || ('a' ≤ c && c ≤ 'f') || ('A' ≤ c && c ≤ 'F')⟩
  else if c = 'o' ∨ c = 'O' then
    some ⟨"octal", fun c => '0' ≤ c && c ≤ '7'⟩
  else if c = 'b' ∨ c = 'B' then
    some ⟨"binary", fun c => c = '0' || c = '1'⟩
  else none

/- The mistake of a character that is no digit of a radix. -/
def badDigit (r : Radix) (c : Char) : String :=
  if c.isDigit then
    "invalid digit '" ++ c.toString ++ "' in " ++ r.kind ++
      " literal"
  else badLiteral r.kind

/-
  The rest behind the digits of a radix.  With `isOpen` a digit
  has to come.
-/
def radixDigits (r : Radix) (isOpen : Bool) : List Char → Reading
  | [] => if isOpen then .error (badLiteral r.kind) else .ok []
  | c :: cs =>
      if r.isDigit c then radixDigits r false cs
      else if isOpen || c.isDigit then .error (badDigit r c)
      else if c = '_' then radixDigits r true cs
      else finish r.kind (c :: cs)

/- The rest behind a number of a radix, from its digits on. -/
def radixNumber (r : Radix) (cs : List Char) : Reading :=
  match cs with
  | '_' :: cs => radixDigits r true cs
  | cs => radixDigits r true cs

------------------------------------------------------------
-- Numbers
------------------------------------------------------------

/- The rest behind a number, which starts with a given digit. -/
def read (first : Char) (cs : List Char) : Reading :=
  if first = '0' then
    match cs with
    | c :: ds =>
        match radix? c with
        | some r => radixNumber r ds
        | none => afterZero cs
    | [] => .ok []
  else digits cs >>= whole

end Number

end Source

end TypedClient
