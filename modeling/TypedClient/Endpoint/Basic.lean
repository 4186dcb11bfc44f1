import TypedClient.Endpoint.Path
import TypedClient.Name.Pascal
import TypedClient.Schema.Basic
import TypedClient.Text.Casing

/-
  This file defines endpoints: pairs of a path and a method, with
  what is derived from them for requests and for emitted code.

  Key definitions include:
    * `Endpoint`
    * `Endpoint.key`
    * `Endpoint.isCallable`
    * `Endpoint.parametersIn`
    * `Endpoint.funcNameOf`
    * `Endpoint.isDynamicPath`
    * `Endpoint.ofSchema`
-/

namespace TypedClient

open Schema (Parameter)

------------------------------------------------------------
-- Endpoints
------------------------------------------------------------

/-
  A path and a method in capitals, the parameters, the section of
  the API, the name in emitted code, and whether the path has to
  be filled in.
-/
structure Endpoint where
  path : RawText
  method : String
  parameters : List Parameter
  group : RawText
  funcName : String
  isDynamic : Bool
deriving DecidableEq, Repr

namespace Endpoint

/- The method and the path in one text. -/
def keyOf (method : String) (path : RawText) : RawText :=
  RawText.ofString (method ++ " ") ++ path

/- The text that tells an endpoint from all others. -/
def key (e : Endpoint) : RawText :=
  keyOf e.method e.path

/- Whether a request without any input makes sense. -/
def isCallable (e : Endpoint) : Bool :=
  e.method = "GET" && !e.isDynamic

/- The parameters that are sent in a place. -/
def parametersIn
    (e : Endpoint)
    (location : String) : List Parameter :=
  e.parameters.filter fun p => p.location = location

------------------------------------------------------------
-- Derivation
------------------------------------------------------------

/- The name of a path in emitted code. -/
def pathName (path : RawText) : String :=
  let clean : RawText := (Path.dropGroups path).filter (· ≠ '?')
  Name.guardDigit 'N' (Name.pascal clean.blanked)

/- A text in capitals. -/
def capitals (s : String) : String :=
  String.ofList (Text.upper s.toList)

/-
  The name of a method and a path in emitted code.  Only methods
  other than GET show in it.
-/
def funcNameOf (method : String) (path : RawText) : String :=
  let verb := capitals method
  if verb = "GET" then pathName path
  else String.ofList (Text.title verb.toList) ++ pathName path

/- Whether a path has to be filled in. -/
def isDynamicPath
    (path : RawText)
    (parameters : List Parameter) : Bool :=
  Path.isVariable path ||
    parameters.any fun p => p.location = "path"

/- The endpoint of an operation. -/
def ofOperation
    (path : RawText)
    (method : Schema.Method)
    (operation : Schema.Operation) : Endpoint :=
  { path := path
    method := method.verb
    parameters := operation.parameters
    group := Path.sectionOf path
    funcName := funcNameOf method.text path
    isDynamic := isDynamicPath path operation.parameters }

------------------------------------------------------------
-- Emission order
------------------------------------------------------------

/- Lexicographic order by section, path and method. -/
def precedes (a b : Endpoint) : Bool :=
  if a.group ≠ b.group then RawText.ble a.group b.group
  else if a.path ≠ b.path then RawText.ble a.path b.path
  else a.method ≤ b.method

/- The endpoints of a schema, in emission order. -/
def ofSchema (schema : Schema) : List Endpoint :=
  (schema.paths.flatMap fun item =>
    item.2.map fun operation =>
      ofOperation item.1 operation.1 operation.2).mergeSort precedes

end Endpoint

end TypedClient
