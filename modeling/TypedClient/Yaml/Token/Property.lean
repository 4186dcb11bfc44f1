import TypedClient.Document.Fault
import TypedClient.Text.Encoding
import TypedClient.Yaml.Scalar
import TypedClient.Yaml.Token.Basic

/-
  This file reads the tokens that are not content: anchors and
  aliases, tags, and the directives in front of a document.

  Key definitions include:
    * `Yaml.Token.anchorName`
    * `Yaml.Token.tagProperty`
    * `Yaml.Token.directive`
-/

namespace TypedClient

namespace Yaml

namespace Token

------------------------------------------------------------
-- Anchors and aliases
------------------------------------------------------------

/- Whether a character may follow the name of an anchor. -/
def endsName (c : Char) : Bool :=
  isGap c || c ∈ "?:,]\x7d%@\x60".toList

/- The name behind the mark of an anchor or an alias. -/
def anchorName
    (c : Cursor) :
    Except Document.Fault (List Char × Cursor) :=
  let name := c.next.span isNameChar
  if name.1.isEmpty || !endsName name.2.head then
    .error .malformed
  else .ok name

------------------------------------------------------------
-- Tags
------------------------------------------------------------

/- The bytes of escapes with a percent sign. -/
def uriBytes
    (fuel : Nat)
    (read : Text.Bytes)
    (c : Cursor) : Except Document.Fault (Text.Bytes × Cursor) :=
  match fuel with
  | 0 => .ok (read.reverse, c)
  | fuel + 1 =>
      if c.head = '%' then
        match Scalar.hexNumber? (c.next.rest.take 2) with
        | some n =>
            if (c.next.rest.take 2).length = 2 then
              uriBytes fuel (UInt8.ofNat n :: read) (c.advance 3)
            else .error .malformed
        | none => .error .malformed
      else .ok (read.reverse, c)

/- The rest of a tag behind `read`, which is in reading order. -/
def uriFrom
    (fuel : Nat)
    (read : List Char)
    (c : Cursor) : Except Document.Fault (List Char × Cursor) :=
  match fuel with
  | 0 => .ok (read, c)
  | fuel + 1 =>
      if c.head = '%' then
        match uriBytes (c.left + 1) [] c with
        | .error e => .error e
        | .ok (bytes, c) =>
            match Text.utf8Strict? bytes with
            | some cs => uriFrom fuel (read ++ cs) c
            | none => .error .malformed
      else if isTagChar c.head then
        uriFrom fuel (read ++ [c.head]) c.next
      else .ok (read, c)

/- A part of a tag that is not empty. -/
def uri
    (c : Cursor) :
    Except Document.Fault (List Char × Cursor) := do
  let found ← uriFrom (c.left + 1) [] c
  if found.1.isEmpty then throw .malformed
  return found

/- A handle: two exclamation marks around a name, or one alone. -/
def tagHandle
    (c : Cursor) :
    Except Document.Fault (List Char × Cursor) :=
  if c.head ≠ '!' then .error .malformed
  else if c.peek 1 = ' ' then .ok (['!'], c.next)
  else
    let name := c.next.span isNameChar
    if name.2.head = '!' then
      .ok ('!' :: name.1 ++ ['!'], name.2.next)
    else .error .malformed

/- Whether a handle is closed before the next gap. -/
def hasHandle (cs : List Char) : Bool :=
  '!' ∈ cs.takeWhile fun c => c = '\t' || !isGap c

/- A tag at its exclamation mark. -/
def tagProperty
    (c : Cursor) :
    Except Document.Fault (Token × Cursor) := do
  let found ←
    if c.peek 1 = '<' then do
      let suffix ← uri (c.advance 2)
      if suffix.2.head ≠ '>' then throw .malformed
      pure (Token.tag none suffix.1, suffix.2.next)
    else if isGap (c.peek 1) then
      pure (Token.tag none ['!'], c.next)
    else do
      let handle ←
        if hasHandle c.next.rest then tagHandle c
        else pure (['!'], c.next)
      let suffix ← uri handle.2
      pure (Token.tag (some handle.1) suffix.1, suffix.2)
  if found.2.head = ' ' || isBreakOrEnd found.2.head then
    return found
  else throw .malformed

------------------------------------------------------------
-- Directives
------------------------------------------------------------

/- Whether a part of a directive ends at a character. -/
def endsPart (c : Char) : Bool :=
  c = ' ' || isBreakOrEnd c

/- A number of a directive. -/
def directiveNumber
    (c : Cursor) :
    Except Document.Fault (Nat × Cursor) :=
  let digits := c.span Char.isDigit
  if digits.1.isEmpty then .error .malformed
  else if 4300 < digits.1.length then .error .badValue
  else
    .ok (digits.1.foldl (fun n d => n * 10 + (d.toNat - 48)) 0,
      digits.2)

/- The major version of a version directive. -/
def version
    (c : Cursor) :
    Except Document.Fault (Token × Cursor) := do
  let major ← directiveNumber (c.skip (· = ' '))
  if major.2.head ≠ '.' then throw .malformed
  let minor ← directiveNumber major.2.next
  if endsPart minor.2.head then
    return (.versionDirective major.1, minor.2)
  else throw .malformed

/- The handle that a tag directive explains, and its meaning. -/
def tagMeaning
    (c : Cursor) :
    Except Document.Fault (Token × Cursor) := do
  let handle ← tagHandle (c.skip (· = ' '))
  if handle.2.head ≠ ' ' then throw .malformed
  let start ← uri (handle.2.skip (· = ' '))
  if endsPart start.2.head then
    return (.tagDirective handle.1 start.1, start.2)
  else throw .malformed

/- A directive at its percent sign, up to the end of the line. -/
def directive
    (c : Cursor) :
    Except Document.Fault (Token × Cursor) := do
  let name := c.next.span isNameChar
  if name.1.isEmpty || !endsPart name.2.head then
    throw .malformed
  let found ←
    if name.1 = "YAML".toList then version name.2
    else if name.1 = "TAG".toList then tagMeaning name.2
    else
      pure (Token.otherDirective,
        name.2.skip fun ch => !isBreakOrEnd ch)
  let c ← Scalar.ignoredLine found.2
  return (found.1, c)

end Token

end Yaml

end TypedClient
