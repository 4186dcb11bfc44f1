import TypedClient.Document.Basic
import TypedClient.Document.Fault
import TypedClient.Text.Blank
import TypedClient.Text.Numeral
import TypedClient.Text.Split

/-
  This file reads the values of YAML scalars from their texts.  A
  tag may force a text into a type whose pattern it does not
  match, so each reader says what fails.

  Key definitions include:
    * `Yaml.Value.bool`
    * `Yaml.Value.int`
    * `Yaml.Value.float`
    * `Yaml.Value.timestamp`
    * `Yaml.Value.binary`
-/

namespace TypedClient

namespace Yaml

namespace Value

/- A value, or why there is none. -/
abbrev Reading :=
  Except Document.Fault Document

------------------------------------------------------------
-- Truth values
------------------------------------------------------------

/- ASCII letters in lower case. -/
def lowered (cs : List Char) : List Char :=
  cs.map Char.toLower

/- The words for truth values. -/
def truthWords : List (String × Bool) :=
  [("yes", true), ("no", false), ("true", true),
    ("false", false), ("on", true), ("off", false)]

/- A truth value. -/
def bool (cs : List Char) : Reading :=
  match truthWords.find? fun w => w.1.toList = lowered cs with
  | some w => .ok (.bool w.2)
  | none => .error .unknownWord

------------------------------------------------------------
-- Digits
------------------------------------------------------------

/- Text without white space at its ends. -/
def trimmed (cs : List Char) : List Char :=
  Text.trimEnd (cs.dropWhile Text.isBlank)

/- The value of a digit to a base up to sixteen. -/
def digit? (base : Nat) (c : Char) : Option Nat :=
  let v :=
    if 'a' ≤ c ∧ c ≤ 'f' then some (c.toNat - 87)
    else if 'A' ≤ c ∧ c ≤ 'F' then some (c.toNat - 55)
    else Text.decimalValue? c
  v.bind fun d => if d < base then some d else none

/- The number that digits to a base write. -/
def ofDigits (base : Nat) (ds : List Nat) : Nat :=
  ds.foldl (fun n d => n * base + d) 0

/- A sign and what is behind it. -/
def splitSign : List Char → Bool × List Char
  | '-' :: cs => (true, cs)
  | '+' :: cs => (false, cs)
  | cs => (false, cs)

/- The letter that marks a base. -/
def baseMark (base : Nat) : Option Char :=
  [(2, 'b'), (8, 'o'), (16, 'x')].lookup base

/- Digits without the mark of their base. -/
def dropMark (base : Nat) : List Char → List Char
  | '0' :: m :: cs =>
      if baseMark base = some m.toLower then cs
      else '0' :: m :: cs
  | cs => cs

/-
  A number to a base, with a sign, the mark of the base and
  space around it.  The number of digits is limited unless the
  base is a power of two.
-/
def number
    (base : Nat)
    (cs : List Char) : Except Document.Fault Int :=
  let (negative, cs) := splitSign (trimmed cs)
  match (dropMark base cs).mapM (digit? base) with
  | none => .error .badValue
  | some ds =>
      if ds.isEmpty || (base = 10 && 4300 < ds.length) then
        .error .badValue
      else .ok (Double.signed negative (ofDigits base ds))

------------------------------------------------------------
-- Parts to the base sixty
------------------------------------------------------------

/- The number of parts to the base sixty. -/
def sixties (parts : List Int) : Int :=
  parts.foldl (fun n p => n * 60 + p) 0

/- The sum of parts to the base sixty, the last part first. -/
def sixtiesSum
    (base : Nat)
    (sum : Double) :
    List Double → Except Document.Fault Double
  | [] => .ok sum
  | part :: parts =>
      match Double.ofRatio false base 1 with
      | .infinite _ => .error .tooLarge
      | unit => sixtiesSum (base * 60) (sum.add (part.mul unit)) parts

------------------------------------------------------------
-- Integers
------------------------------------------------------------

/- The sign of a number in front of its digits, if any. -/
def signedDigits
    (cs : List Char) :
    Except Document.Fault (Bool × List Char) :=
  if cs.isEmpty then .error .noDigits else .ok (splitSign cs)

/- The size of an integer whose sign is taken off. -/
def magnitude (cs : List Char) : Except Document.Fault Int :=
  match cs with
  | [] => .error .noDigits
  | ['0'] => .ok 0
  | '0' :: 'b' :: ds => number 2 ds
  | '0' :: 'x' :: ds => number 16 ds
  | '0' :: _ => number 8 cs
  | _ =>
      if ':' ∈ cs then
        (Text.splitOn ':' cs).mapM (number 10) |>.map sixties
      else number 10 cs

/- An integer. -/
def int (cs : List Char) : Reading := do
  let (negative, ds) ← signedDigits (cs.filter (· ≠ '_'))
  let n ← magnitude ds
  return .int (if negative then -n else n)

------------------------------------------------------------
-- Numbers with a point
------------------------------------------------------------

/- The digits that text starts with, of any script. -/
def takeDigits : List Char → List Nat × List Char
  | [] => ([], [])
  | c :: cs =>
      match Text.decimalValue? c with
      | some d =>
          let more := takeDigits cs
          (d :: more.1, more.2)
      | none => ([], c :: cs)

/- The exponent of a number, which ends the text. -/
def exponent : List Char → Except Document.Fault Int
  | [] => .ok 0
  | m :: cs =>
      if m.toLower = 'e' then
        let (negative, cs) := splitSign cs
        match takeDigits cs with
        | ([], _) => .error .badValue
        | (ds, []) => .ok (Double.signed negative (ofDigits 10 ds))
        | _ => .error .badValue
      else .error .badValue

/- A decimal number without a sign. -/
def decimal
    (negative : Bool)
    (cs : List Char) : Except Document.Fault Double := do
  let (whole, cs) := takeDigits cs
  let (fraction, cs) :=
    match cs with
    | '.' :: cs => takeDigits cs
    | cs => ([], cs)
  if whole.isEmpty && fraction.isEmpty then throw .badValue
  let e ← exponent cs
  return Double.ofDecimal negative
    (ofDigits 10 (whole ++ fraction)) (e - fraction.length)

/- A double in any of its spellings. -/
def double (cs : List Char) : Except Document.Fault Double :=
  let (negative, cs) := splitSign (trimmed cs)
  let word := String.ofList (lowered cs)
  if word = "inf" ∨ word = "infinity" then
    .ok (.infinite negative)
  else if word = "nan" then .ok .nan
  else decimal negative cs

/- A double whose sign is taken off. -/
def floatMagnitude
    (cs : List Char) : Except Document.Fault Double :=
  if cs = ['.', 'i', 'n', 'f'] then .ok (.infinite false)
  else if cs = ['.', 'n', 'a', 'n'] then .ok .nan
  else if ':' ∈ cs then do
    let parts ← (Text.splitOn ':' cs).mapM double
    sixtiesSum 1 (.zero false) parts.reverse
  else double cs

/- A double. -/
def float (cs : List Char) : Reading := do
  let (negative, ds) ←
    signedDigits (lowered (cs.filter (· ≠ '_')))
  let x ← floatMagnitude ds
  return .double (if negative then x.neg else x)

------------------------------------------------------------
-- Points in time
------------------------------------------------------------

/- The number of between `least` and `most` digits. -/
def digitsBetween
    (least most : Nat)
    (cs : List Char) : Option (Nat × List Char) :=
  let ds := (cs.take most).takeWhile Char.isDigit
  if ds.length < least then none
  else
    some (ofDigits 10 (ds.map fun c => c.toNat - 48),
      cs.drop ds.length)

/- What is behind a character that has to come next. -/
def behind? (c : Char) : List Char → Option (List Char)
  | [] => none
  | d :: cs => if d = c then some cs else none

/- The day that text starts with. -/
def day? (cs : List Char) : Option (Document.Day × List Char) := do
  let (year, cs) ← digitsBetween 4 4 cs
  let (month, cs) ← digitsBetween 1 2 (← behind? '-' cs)
  let (day, cs) ← digitsBetween 1 2 (← behind? '-' cs)
  return (⟨year, month, day⟩, cs)

/- What is behind the mark between a day and a time. -/
def clockMark? : List Char → Option (List Char)
  | 'T' :: cs => some cs
  | 't' :: cs => some cs
  | ' ' :: cs => some (cs.dropWhile fun c => c = ' ' ∨ c = '\t')
  | '\t' :: cs => some (cs.dropWhile fun c => c = ' ' ∨ c = '\t')
  | _ => none

/- The first six digits behind a point, as millionths. -/
def micros? : List Char → Nat × List Char
  | '.' :: cs =>
      let ds := cs.takeWhile Char.isDigit
      let six := (ds ++ List.replicate 6 '0').take 6
      (ofDigits 10 (six.map fun c => c.toNat - 48),
        cs.drop ds.length)
  | cs => (0, cs)

/-
  The distance from universal time that ends a text, in minutes;
  the inner `none` stands for an unknown one.
-/
def zone? (cs : List Char) : Option (Option Int) :=
  match cs.dropWhile fun c => c = ' ' ∨ c = '\t' with
  | [] => if cs.isEmpty then some none else none
  | ['Z'] => some (some 0)
  | s :: cs =>
      if s = '+' ∨ s = '-' then do
        let (hours, cs) ← digitsBetween 1 2 cs
        let (minutes, cs) ←
          match cs with
          | ':' :: cs => digitsBetween 2 2 cs
          | cs => some (0, cs)
        if cs.isEmpty then
          some (some
            (Double.signed (s = '-') (hours * 60 + minutes)))
        else none
      else none

/- The point in time of a day and the text behind it. -/
def moment?
    (d : Document.Day)
    (cs : List Char) : Option Document.Moment := do
  let (hour, cs) ← digitsBetween 1 2 (← clockMark? cs)
  let (minute, cs) ← digitsBetween 2 2 (← behind? ':' cs)
  let (second, cs) ← digitsBetween 2 2 (← behind? ':' cs)
  let (micros, cs) := micros? cs
  let offset ← zone? cs
  return ⟨d, hour, minute, second, micros, offset⟩

/- The number of days of a month. -/
def daysIn (year month : Nat) : Nat :=
  if month = 2 then
    if year % 4 = 0 ∧ (year % 100 ≠ 0 ∨ year % 400 = 0) then 29
    else 28
  else if month ∈ [4, 6, 9, 11] then 30
  else 31

/- Whether a day exists. -/
def existsDay (d : Document.Day) : Bool :=
  1 ≤ d.year && 1 ≤ d.month && d.month ≤ 12 && 1 ≤ d.day &&
    d.day ≤ daysIn d.year d.month

/- Whether a point in time exists. -/
def existsMoment (m : Document.Moment) : Bool :=
  existsDay m.day && m.hour < 24 && m.minute < 60 &&
    m.second < 60 &&
    m.offset.all fun o => decide (o.natAbs < 1440)

/- A day or a point in time. -/
def timestamp (cs : List Char) : Reading :=
  let cs := if cs.getLast? = some '\n' then cs.dropLast else cs
  match day? cs with
  | none => .error .badTimestamp
  | some (d, []) =>
      if existsDay d then .ok (.day d) else .error .badValue
  | some (d, rest) =>
      match moment? d rest with
      | none => .error .badTimestamp
      | some m =>
          if existsMoment m then .ok (.moment m)
          else .error .badValue

------------------------------------------------------------
-- Bytes
------------------------------------------------------------

/- The six bits that a character stands for. -/
def sixBits? (c : Char) : Option Nat :=
  if c.isUpper then some (c.toNat - 65)
  else if c.isLower then some (c.toNat - 71)
  else if c.isDigit then some (c.toNat + 4)
  else if c = '+' then some 62
  else if c = '/' then some 63
  else none

/-
  The bytes of a text in groups of four characters.  `place` is
  the place in the group, `left` the bits left over, `pads` the
  number of padding marks in a row, and `read` the bytes so far,
  backwards.  Other characters are skipped.
-/
def base64From
    (read : Text.Bytes)
    (place left pads : Nat) :
    List Char → Option Text.Bytes
  | [] => if place = 0 then some read.reverse else none
  | c :: cs =>
      if c = '=' then
        if 2 ≤ place ∧ 4 ≤ place + pads + 1 then
          some read.reverse
        else if 2 ≤ place then
          base64From read place left (pads + 1) cs
        else base64From read place left pads cs
      else
        match sixBits? c with
        | none => base64From read place left pads cs
        | some n =>
            let byte (b : Nat) := UInt8.ofNat b :: read
            match place with
            | 0 => base64From read 1 n 0 cs
            | 1 => base64From (byte (left * 4 + n / 16)) 2
                (n % 16) 0 cs
            | 2 => base64From (byte (left * 16 + n / 4)) 3
                (n % 4) 0 cs
            | _ => base64From (byte (left * 64 + n)) 0 0 0 cs

/- The bytes that ASCII text writes. -/
def binary (cs : List Char) : Reading :=
  if cs.all fun c => c.toNat < 128 then
    match base64From [] 0 0 0 cs with
    | some bs => .ok (.bytes bs)
    | none => .error .malformed
  else .error .malformed

end Value

end Yaml

end TypedClient
