import TypedClient.Source.Parse.Run
import TypedClient.Text.Lines

/-
  This file decides which source is accepted.

  Key definitions include:
    * `Source.prepared`
    * `Source.check`
-/

namespace TypedClient

namespace Source

/-
  A text as it is read: every line ends with a line feed, and so
  does the last one.  A carriage return and a line feed at the end
  of the text are followed by an empty line.
-/
def prepared (text : List Char) : List Char :=
  let isClosed :=
    match text.reverse with
    | '\n' :: '\r' :: _ => false
    | '\n' :: _ => true
    | '\r' :: _ => true
    | _ => false
  Text.plainBreaks text ++ (if isClosed then [] else ['\n'])

/- Whether a text is accepted. -/
def check (text : List Char) : Except Refusal Unit :=
  if '\x00' ∈ text then .error .nullCharacter
  else
    match Parse.mistake? (prepared text) with
    | some m => .error (.mistake m)
    | none => .ok ()

end Source

end TypedClient
