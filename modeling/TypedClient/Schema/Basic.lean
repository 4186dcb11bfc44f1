import TypedClient.Text.CodePoint

/-
  This file defines API schemas: the operations that an API
  offers under each path, with the parameters that each of them
  takes and the status codes that it declares.  Texts are kept as
  they were decoded, with surrogates that stand alone.

  Key definitions include:
    * `Schema.Method`
    * `Schema.Parameter`
    * `Schema.Operation`
    * `Schema`
-/

namespace TypedClient

------------------------------------------------------------
-- Methods
------------------------------------------------------------

/- The methods that a path may offer. -/
inductive Schema.Method where
  | get
  | put
  | post
  | delete
  | options
  | head
  | patch
deriving DecidableEq, Repr

namespace Schema.Method

/- All methods. -/
def all : List Method :=
  [get, put, post, delete, options, head, patch]

/- The text of a method in a schema. -/
def text : Method → String
  | get => "get"
  | put => "put"
  | post => "post"
  | delete => "delete"
  | options => "options"
  | head => "head"
  | patch => "patch"

/- The text of a method in a request. -/
def verb : Method → String
  | get => "GET"
  | put => "PUT"
  | post => "POST"
  | delete => "DELETE"
  | options => "OPTIONS"
  | head => "HEAD"
  | patch => "PATCH"

/- The method that a text in lower case names. -/
def ofText? (s : String) : Option Method :=
  all.find? fun m => m.text = s

end Schema.Method

------------------------------------------------------------
-- Schemas
------------------------------------------------------------

/-
  A parameter of an operation: its name, where it is sent and the
  kind of its values.
-/
structure Schema.Parameter where
  name : RawText
  location : RawText
  kind : String
deriving DecidableEq, Repr

/- What one method of a path takes and may answer. -/
structure Schema.Operation where
  parameters : List Schema.Parameter
  codes : List RawText
deriving Repr

/- The methods that a path offers. -/
abbrev Schema.PathItem :=
  List (Schema.Method × Schema.Operation)

/- An API, with a title, a version and its paths. -/
structure Schema where
  title : RawText
  version : RawText
  paths : List (RawText × Schema.PathItem)
deriving Repr

end TypedClient
