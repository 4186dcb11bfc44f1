import TypedClient.Name.Pascal
import TypedClient.Name.Snake

/-
  This file keeps derived names clear of the words that the
  emitted code may not use: keywords, the arguments that every
  method has, and the members that every model has.

  Key definitions include:
    * `Name.keywords`
    * `Name.reservedParameters`
    * `Name.reservedAttributes`
    * `Name.avoid`
    * `Name.ofParameter`
    * `Name.ofField`
-/

namespace TypedClient

namespace Name

------------------------------------------------------------
-- Words
------------------------------------------------------------

/- The keywords of the emitted code. -/
def keywords : List String :=
  ["False", "None", "True", "and", "as", "assert", "async",
    "await", "break", "class", "continue", "def", "del", "elif",
    "else", "except", "finally", "for", "from", "global", "if",
    "import", "in", "is", "lambda", "nonlocal", "not", "or",
    "pass", "raise", "return", "try", "while", "with", "yield"]

/- The arguments that a method has besides its parameters. -/
def reservedParameters : List String :=
  ["self", "body"]

/-
  The members that every model has and the types that stand in
  its annotations.
-/
def reservedAttributes : List String :=
  ["bool", "construct", "copy", "dict", "float", "from_orm",
    "int", "json", "list", "parse_file", "parse_obj",
    "parse_raw", "schema", "schema_json", "str",
    "update_forward_refs", "validate"]

/- The start of the names that a model keeps for itself. -/
def modelMark : String :=
  "model_"

------------------------------------------------------------
-- Avoidance
------------------------------------------------------------

/-
  A name, with an underscore behind it if it is a keyword or
  reserved.
-/
def avoid (reserved : List String) (name : String) : String :=
  if name ∈ keywords ∨ name ∈ reserved then name ++ "_"
  else name

/- The argument name of a parameter. -/
def ofParameter (raw : String) : String :=
  let name := guardDigit 'n' (snake (pascal raw))
  if name ∈ keywords ∨ name ∈ reservedParameters then
    name ++ "_param"
  else name

/- The attribute name of a field. -/
def ofField (field : String) : String :=
  let name := snake field
  if name.startsWith modelMark then name ++ "_"
  else avoid reservedAttributes name

end Name

end TypedClient
