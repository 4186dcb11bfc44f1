import TypedClient.Text.CodePoint

/-
  This file decodes bytes into text.  UTF-8 is read byte by byte
  so that every longest ill-formed part is seen as one fault,
  and the Unicode encodings are told apart by their byte order
  mark or by where the zero bytes stand.

  Key definitions include:
    * `Text.utf8Strict?`
    * `Text.utf8Lossy`
    * `Text.Encoding`
    * `Text.Encoding.detect`
    * `Text.decode?`
-/

namespace TypedClient

namespace Text

/- Bytes in a row. -/
abbrev Bytes :=
  List UInt8

------------------------------------------------------------
-- UTF-8
------------------------------------------------------------

/-
  Where a UTF-8 reader stands: between characters, or inside
  one, with the number of bytes it still owes, the range of the
  next byte and the bits read so far.
-/
inductive Utf8State where
  | between
  | inside (owed low high bits : Nat)

/- A code point, or `none` for an ill-formed part. -/
abbrev Utf8Item :=
  Option CodePoint

/-
  Read the first byte of a character.  With `halves` a surrogate
  may be encoded on its own.
-/
def utf8First
    (halves : Bool)
    (b : Nat) : List Utf8Item × Utf8State :=
  if b < 0x80 then ([CodePoint.ofNat? b], .between)
  else if b < 0xC2 then ([none], .between)
  else if b < 0xE0 then ([], .inside 1 0x80 0xBF (b - 0xC0))
  else if b = 0xE0 then ([], .inside 2 0xA0 0xBF 0)
  else if b = 0xED then
    ([], .inside 2 0x80 (if halves then 0xBF else 0x9F) 0xD)
  else if b < 0xF0 then ([], .inside 2 0x80 0xBF (b - 0xE0))
  else if b = 0xF0 then ([], .inside 3 0x90 0xBF 0)
  else if b < 0xF4 then ([], .inside 3 0x80 0xBF (b - 0xF0))
  else if b = 0xF4 then ([], .inside 3 0x80 0x8F 4)
  else ([none], .between)

/- Read one byte. -/
def utf8Step
    (halves : Bool)
    (state : Utf8State)
    (b : Nat) : List Utf8Item × Utf8State :=
  match state with
  | .between => utf8First halves b
  | .inside owed low high bits =>
      if low ≤ b ∧ b ≤ high then
        let bits := bits * 64 + (b - 0x80)
        if owed = 1 then ([CodePoint.ofNat? bits], .between)
        else ([], .inside (owed - 1) 0x80 0xBF bits)
      else
        let next := utf8First halves b
        (none :: next.1, next.2)

/- Read bytes from a state on; `items` is read backwards. -/
def utf8From
    (halves : Bool)
    (items : List Utf8Item)
    (state : Utf8State) : Bytes → List Utf8Item
  | [] =>
      match state with
      | .between => items.reverse
      | .inside _ _ _ _ => (none :: items).reverse
  | b :: bs =>
      let next := utf8Step halves state b.toNat
      utf8From halves (next.1.reverse ++ items) next.2 bs

/- The code points of UTF-8 and its ill-formed parts. -/
def utf8Items (halves : Bool) (bytes : Bytes) : List Utf8Item :=
  utf8From halves [] .between bytes

/- The text of well-formed UTF-8. -/
def utf8Strict? (bytes : Bytes) : Option (List Char) :=
  (utf8Items false bytes).mapM (·.bind CodePoint.toChar?)

/- The text of UTF-8 with U+FFFD for each ill-formed part. -/
def utf8Lossy (bytes : Bytes) : List Char :=
  (utf8Items false bytes).map fun item =>
    (item.bind CodePoint.toChar?).getD '\uFFFD'

------------------------------------------------------------
-- Wider units
------------------------------------------------------------

/- The number that bytes write, the most significant first. -/
def bigEndian (bytes : List UInt8) : Nat :=
  bytes.foldl (fun n b => n * 256 + b.toNat) 0

/- The number that the bytes of a unit write. -/
def unitOf (big : Bool) (bytes : List UInt8) : Nat :=
  bigEndian (if big then bytes else bytes.reverse)

/- The character of a surrogate pair. -/
def joinPair (high low : Nat) : Nat :=
  0x10000 + (high - 0xD800) * 0x400 + (low - 0xDC00)

/- Whether a UTF-16 unit is the first half of a pair. -/
def isHighHalf (u : Nat) : Bool :=
  0xD800 ≤ u && u < 0xDC00

/- Whether a UTF-16 unit is the second half of a pair. -/
def isLowHalf (u : Nat) : Bool :=
  0xDC00 ≤ u && u < 0xE000

/- The units of two bytes each. -/
def units16 (big : Bool) (us : List Nat) : Bytes → Option (List Nat)
  | [] => some us.reverse
  | [_] => none
  | a :: b :: bs => units16 big (unitOf big [a, b] :: us) bs

/- The units of four bytes each. -/
def units32 (big : Bool) (us : List Nat) : Bytes → Option (List Nat)
  | [] => some us.reverse
  | a :: b :: c :: d :: bs =>
      units32 big (unitOf big [a, b, c, d] :: us) bs
  | _ => none

/-
  The code points of UTF-16 units, a pair as one.  `high` is the
  first half that was read last, if it is still open.
-/
def joinUnits
    (points : List Nat)
    (high : Option Nat) : List Nat → List Nat
  | [] => (high.toList ++ points).reverse
  | u :: us =>
      match high with
      | some h =>
          if isLowHalf u then
            joinUnits (joinPair h u :: points) none us
          else if isHighHalf u then
            joinUnits (h :: points) (some u) us
          else joinUnits (u :: h :: points) none us
      | none =>
          if isHighHalf u then joinUnits points (some u) us
          else joinUnits (u :: points) none us

/- The text of UTF-16. -/
def utf16? (big : Bool) (bytes : Bytes) : Option RawText :=
  (units16 big [] bytes).bind fun us =>
    (joinUnits [] none us).mapM CodePoint.ofNat?

/- The text of UTF-32. -/
def utf32? (big : Bool) (bytes : Bytes) : Option RawText :=
  (units32 big [] bytes).bind fun us =>
    us.mapM CodePoint.ofNat?

------------------------------------------------------------
-- Detection
------------------------------------------------------------

/- A Unicode encoding, with its byte order. -/
inductive Encoding where
  | utf8
  | utf16 (big : Bool)
  | utf32 (big : Bool)
deriving DecidableEq, Repr

namespace Encoding

/-
  The encoding of bytes without a byte order mark.  The first
  characters are taken to be ASCII, so zero bytes tell the width
  and the order of the units.
-/
def ofZeros : Bytes → Encoding
  | [a, b] =>
      if a = 0 then .utf16 true
      else if b = 0 then .utf16 false
      else .utf8
  | a :: b :: c :: d :: _ =>
      if a = 0 then
        if b = 0 then .utf32 true else .utf16 true
      else if b = 0 then
        if c = 0 ∧ d = 0 then .utf32 false else .utf16 false
      else .utf8
  | _ => .utf8

/- The encoding of bytes, and the bytes behind the mark. -/
def detect : Bytes → Encoding × Bytes
  | 0x00 :: 0x00 :: 0xFE :: 0xFF :: bs => (.utf32 true, bs)
  | 0xFF :: 0xFE :: 0x00 :: 0x00 :: bs => (.utf32 false, bs)
  | 0xFE :: 0xFF :: bs => (.utf16 true, bs)
  | 0xFF :: 0xFE :: bs => (.utf16 false, bs)
  | 0xEF :: 0xBB :: 0xBF :: bs => (.utf8, bs)
  | bs => (ofZeros bs, bs)

end Encoding

/-
  The text of bytes in a Unicode encoding.  A surrogate may be
  encoded on its own; any other fault leaves no text.
-/
def decode? (bytes : Bytes) : Option RawText :=
  match Encoding.detect bytes with
  | (.utf8, bs) => (utf8Items true bs).mapM id
  | (.utf16 big, bs) => utf16? big bs
  | (.utf32 big, bs) => utf32? big bs

end Text

end TypedClient
