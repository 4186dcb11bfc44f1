import TypedClient.Emit.PathExpression
import TypedClient.Endpoint.Basic
import TypedClient.Name.Registry
import TypedClient.Name.Reserved
import TypedClient.Shape.Basic

/-
  This file emits the unit of the client: one method an
  endpoint.  A method whose response is a record decodes it, any
  other method returns the bytes of the response.

  Key definitions include:
    * `Emit.claimMethod`
    * `Emit.Signature`
    * `Emit.docstring`
    * `Emit.methodLines`
    * `Emit.client`
-/

namespace TypedClient

namespace Emit

open Schema (Parameter)

------------------------------------------------------------
-- Fixed part
------------------------------------------------------------

/- The errors, the class and its request, before all methods. -/
def clientBase : List String :=
  ["class ApiError(Exception):",
    "    \"\"\"Raised for any non-2xx response.\"\"\"",
    "",
    "    def __init__(self, status_code: int, body: str):",
    "        super().__init__(f\"HTTP \x7bstatus_code\x7d: \x7bbody\x7d\")",
    "        self.status_code = status_code",
    "        self.body = body",
    "",
    "",
    "class DecodeError(Exception):",
    "    \"\"\"Raised when a response body does not match its model.\"\"\"",
    "",
    "",
    "def _query_value(value):",
    "    if isinstance(value, bool):",
    "        return \"true\" if value else \"false\"",
    "    return value",
    "",
    "",
    "class Client:",
    "    def __init__(self, base_url: str, session: requests.Session | None = None):",
    "        self.base_url = base_url.rstrip(\"/\")",
    "        self.session = session or requests.Session()",
    "",
    "    def _request(self, method: str, path: str, params: dict | None = None, body: Any = None) -> bytes:",
    "        kwargs = \x7b\x7d",
    "        if params:",
    "            query = \x7bk: _query_value(v) for k, v in params.items() if v is not None\x7d",
    "            if query:",
    "                kwargs[\"params\"] = query",
    "        if body is not None:",
    "            kwargs[\"json\"] = body",
    "        resp = self.session.request(method, self.base_url + path, **kwargs)",
    "        if not 200 <= resp.status_code < 300:",
    "            raise ApiError(resp.status_code, resp.text)",
    "        return resp.content",
    ""]

/- The members of the client that no method may hide. -/
def clientMembers : List String :=
  ["base_url", "session"]

------------------------------------------------------------
-- Names
------------------------------------------------------------

/- The name that an endpoint asks for. -/
def wantedName (e : Endpoint) : String :=
  Name.avoid clientMembers (Name.snake e.funcName)

/- A text in small letters. -/
def smallLetters (s : String) : String :=
  String.ofList (Text.lower s.toList)

/-
  The name of the method of an endpoint.  If the name that it asks
  for was given out, its request method is put behind it.
-/
def claimMethod
    (names : Name.Registry)
    (e : Endpoint) : String × Name.Registry :=
  let name := wantedName e
  if names.has name then
    names.claim (name ++ "_" ++ smallLetters e.method)
  else names.claim name

/- The names of the methods of endpoints, in order. -/
def methodNamesFrom
    (names : Name.Registry) : List Endpoint → List String
  | [] => []
  | e :: es =>
      let first := claimMethod names e
      first.1 :: methodNamesFrom first.2 es

/- The names of the methods of endpoints, in order. -/
def methodNames (endpoints : List Endpoint) : List String :=
  methodNamesFrom .empty endpoints

------------------------------------------------------------
-- Signatures
------------------------------------------------------------

/- The types of kinds of values. -/
def kindTypes : List (String × String) :=
  [("integer", "int"), ("number", "float"),
    ("boolean", "bool"), ("string", "str")]

/- The type of a kind of values. -/
def kindType (kind : String) : String :=
  (kindTypes.lookup kind).getD "str"

/- A parameter with the argument that stands for it. -/
structure Argument where
  parameter : Parameter
  name : String
deriving DecidableEq, Repr

/-
  The arguments of a method: those of the path, which have to be
  given, those of the query, and perhaps a body.
-/
structure Signature where
  path : List Argument
  query : List Argument
  hasBody : Bool
deriving DecidableEq, Repr

namespace Signature

/- Arguments for parameters, with names that are free. -/
def arguments
    (names : Name.Registry)
    (parameters : List Parameter) :
    List Argument × Name.Registry :=
  let given := names.claimAll
    (parameters.map fun p => Name.ofParameter p.name.blanked)
  (List.zipWith Argument.mk parameters given.1, given.2)

/- The signature of the method of an endpoint. -/
def ofEndpoint (e : Endpoint) : Signature :=
  let path := arguments .empty (e.parametersIn "path")
  let query := arguments path.2 (e.parametersIn "query")
  { path := path.1
    query := query.1
    hasBody := !(e.parametersIn "body").isEmpty }

/- The text of an argument that has to be given. -/
def pathText (a : Argument) : String :=
  a.name ++ ": " ++ kindType a.parameter.kind

/- The text of an argument that may be left out. -/
def queryText (a : Argument) : String :=
  a.name ++ ": " ++ kindType a.parameter.kind ++
    " | None = None"

/- The texts of all arguments. -/
def texts (s : Signature) : List String :=
  "self" :: s.path.map pathText ++ s.query.map queryText ++
    (if s.hasBody then ["body: Any = None"] else [])

end Signature

------------------------------------------------------------
-- Calls
------------------------------------------------------------

/- The pair of the name of a parameter and its argument. -/
def queryPair (a : Argument) : String :=
  rawLiteral a.parameter.name ++ ": " ++ a.name

/- The dictionary that a query is built from. -/
def queryDict (query : List Argument) : String :=
  "\x7b" ++ commaList (query.map queryPair) ++ "\x7d"

/- The arguments of the request of a method. -/
def requestArgs (e : Endpoint) (s : Signature) : List String :=
  [literal e.method,
    pathExpression e.path (s.path.map Argument.name)] ++
    (if s.query.isEmpty then []
      else ["params=" ++ queryDict s.query]) ++
    (if s.hasBody then ["body=body"] else [])

/- The request of a method. -/
def requestCall (e : Endpoint) (s : Signature) : String :=
  "self._request(" ++ commaList (requestArgs e s) ++ ")"

------------------------------------------------------------
-- Methods
------------------------------------------------------------

/- A code point between the quotes of a docstring. -/
def docstringPoint (p : CodePoint) : RawText :=
  if p = '\\' then ['\\', '\\']
  else if p = '"' then ['\\', '"']
  else [p]

/- What stands between the quotes of the docstring of a method. -/
def docstring (e : Endpoint) : RawText :=
  e.key.flatMap docstringPoint

/- The quotes of a docstring. -/
def docstringQuotes : RawText :=
  "\"\"\""

/- The line of the docstring of a method. -/
def docstringLine (e : Endpoint) : RawText :=
  RawText.ofString "        " ++ docstringQuotes ++ docstring e ++
    docstringQuotes

/- The lines of a method that decodes its response. -/
def decodingLines (request record : String) : List String :=
  ["        data = " ++ request,
    "        try:",
    "            return " ++ record ++ ".model_validate_json(data)",
    "        except ValidationError as e:",
    "            raise DecodeError(f\"decode " ++ record ++
      ": \x7be\x7d\") from e"]

/- What a method returns: a record that has a name, or bytes. -/
def returnType (record : Option String) : String :=
  (record.filter fun r => !r.isEmpty).getD "bytes"

/- The first line of a method. -/
def headLine
    (name : String)
    (s : Signature)
    (record : Option String) : String :=
  "    def " ++ name ++ "(" ++ commaList s.texts ++ ") -> " ++
    returnType record ++ ":"

/- The lines of a method that make its request. -/
def requestLines
    (request : String)
    (record : Option String) : List String :=
  match record with
  | none => ["        return " ++ request]
  | some record => decodingLines request record

/- The lines of the method of an endpoint. -/
def methodLines
    (e : Endpoint)
    (name : String)
    (record : Option String) : List RawText :=
  let signature := Signature.ofEndpoint e
  RawText.ofString (headLine name signature record) ::
    docstringLine e ::
    plain (requestLines (requestCall e signature) record)

------------------------------------------------------------
-- Unit
------------------------------------------------------------

/- The record that the response of an endpoint is decoded to. -/
def responseRecord?
    (shapes : List (RawText × Shape))
    (e : Endpoint) : Option String :=
  (shapes.lookup e.key).bind Shape.recordName?

/- Texts in order, each once. -/
def sortedOnce (texts : List String) : List String :=
  texts.eraseDups.mergeSort fun s t => s ≤ t

/- The lines that import records. -/
def importLines (records : List String) : List String :=
  if records.isEmpty then []
  else
    ["", "from .models import ("] ++
      (records.map fun r => "    " ++ r ++ ",") ++ [")"]

/- The lines above the client. -/
def clientPreamble (records : List String) : List String :=
  [header,
    "",
    "from typing import Any",
    "",
    "import requests",
    "from pydantic import ValidationError"] ++
    importLines records ++ ["", ""]

/- The lines of the client. -/
def clientLines
    (endpoints : List Endpoint)
    (shapes : List (RawText × Shape)) : List RawText :=
  let records := endpoints.map (responseRecord? shapes)
  let named := (records.filterMap id).filter fun r => !r.isEmpty
  let methods := List.zipWith (fun e p => methodLines e p.1 p.2)
    endpoints ((methodNames endpoints).zip records)
  plain (clientPreamble (sortedOnce named) ++ clientBase) ++
    methods.flatMap ([] :: ·)

/- The unit of the client, in the order of the endpoints. -/
def client
    (endpoints : List Endpoint)
    (shapes : List (RawText × Shape)) : RawText :=
  unitText (clientLines endpoints shapes)

end Emit

end TypedClient
