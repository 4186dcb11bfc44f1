import TypedClient.Schema.Basic
import TypedClient.Schema.Failure
import TypedClient.Text.Casing
import TypedClient.Yaml.Read

/-
  This file reads schemas from documents.  Only a document
  without a mapping of paths is refused; inside the paths,
  everything that is no operation is passed over.

  Key definitions include:
    * `Schema.kinds`
    * `Schema.ofDocument`
    * `Schema.parse`
-/

namespace TypedClient

namespace Schema

------------------------------------------------------------
-- Texts
------------------------------------------------------------

/- The text of a document, whatever it is. -/
def labelOf (d : Document) : Except Failure RawText :=
  match d.label with
  | .ok t => .ok t
  | .error e => .error (.document e)

/- The text of an entry, or nothing if it is absent or blank. -/
def textAt
    (entries : List (Document × Document))
    (key : String) : Except Failure RawText :=
  match Document.find? entries key with
  | none => .ok []
  | some d => if d.isBlank then .ok [] else labelOf d

------------------------------------------------------------
-- Parameters
------------------------------------------------------------

/- The kinds of values that are told apart. -/
def kinds : List String :=
  ["integer", "number", "boolean", "string"]

/- The kind of values that is assumed. -/
def defaultKind : String :=
  "string"

/- The location that is assumed. -/
def defaultLocation : String :=
  "query"

/- The kind of values that a parameter declares. -/
def kindOf (entries : List (Document × Document)) : String :=
  match Document.find? entries "type" with
  | some (.text t) =>
      (kinds.find? fun k => RawText.ofString k = t).getD
        defaultKind
  | _ => defaultKind

/-
  The parameter that a document declares.  A document without a
  name declares none.
-/
def parameterOf
    (d : Document) : Except Failure (Option Parameter) :=
  match d.entries? with
  | none => .ok none
  | some entries =>
      match Document.find? entries "name" with
      | none => .ok none
      | some .null => .ok none
      | some name => do
          let name ← labelOf name
          let location ← textAt entries "in"
          let location : RawText :=
            if location.isEmpty then defaultLocation
            else location
          return some ⟨name, location, kindOf entries⟩

/- The parameters that documents declare, in order. -/
def parametersOf :
    List Document → Except Failure (List Parameter)
  | [] => .ok []
  | d :: ds => do
      let first ← parameterOf d
      return first.toList ++ (← parametersOf ds)

------------------------------------------------------------
-- Operations
------------------------------------------------------------

/- The items of a list. -/
def itemsAt
    (entries : List (Document × Document))
    (key : String) : List Document :=
  ((Document.find? entries key).bind Document.items?).getD []

/- The entries of a mapping. -/
def entriesAt
    (entries : List (Document × Document))
    (key : String) : List (Document × Document) :=
  ((Document.find? entries key).bind Document.entries?).getD []

/- The texts of keys, each once. -/
def codesOf :
    List (Document × Document) → Except Failure (List RawText)
  | [] => .ok []
  | e :: es => do
      let code ← labelOf e.1
      let others ← codesOf es
      return code :: others.filter (· ≠ code)

/- The operation that the entries of a mapping declare. -/
def operationOf
    (entries : List (Document × Document)) :
    Except Failure Operation := do
  let parameters ← parametersOf (itemsAt entries "parameters")
  let codes ← codesOf (entriesAt entries "responses")
  return ⟨parameters, codes⟩

/- The method that a key names, in any case. -/
def methodOf (key : RawText) : Option Method :=
  key.toChars?.bind fun cs =>
    Method.ofText? (String.ofList (Text.lower cs))

/- A list with the value of a key replaced, or a new pair. -/
def put
    {α β : Type}
    [DecidableEq α]
    (pairs : List (α × β))
    (key : α)
    (value : β) : List (α × β) :=
  match pairs with
  | [] => [(key, value)]
  | p :: ps =>
      if p.1 = key then (key, value) :: ps
      else p :: put ps key value

/- The operations that a path offers, added to `item`. -/
def pathItemOf
    (item : PathItem) :
    List (Document × Document) → Except Failure PathItem
  | [] => .ok item
  | (key, value) :: es => do
      let key ← labelOf key
      match methodOf key, value.entries? with
      | some method, some entries =>
          let operation ← operationOf entries
          pathItemOf (put item method operation) es
      | _, _ => pathItemOf item es

------------------------------------------------------------
-- Schemas
------------------------------------------------------------

/- The paths that the entries of a mapping declare. -/
def pathsOf
    (paths : List (RawText × PathItem)) :
    List (Document × Document) →
      Except Failure (List (RawText × PathItem))
  | [] => .ok paths
  | (path, value) :: es =>
      match value.entries? with
      | none => pathsOf paths es
      | some entries => do
          let item ← pathItemOf [] entries
          let text ← labelOf path
          pathsOf (put paths text item) es

/- The mapping of paths of a document. -/
def pathsEntries?
    (d : Document) : Option (List (Document × Document) ×
      List (Document × Document)) :=
  d.entries?.bind fun entries =>
    ((Document.find? entries "paths").bind
      Document.entries?).map fun paths => (entries, paths)

/- The schema that a document describes. -/
def ofDocument (d : Document) : Except Failure Schema :=
  match pathsEntries? d with
  | none => .error (.schema .noPaths)
  | some (entries, paths) => do
      let info := entriesAt entries "info"
      let paths ← pathsOf [] paths
      let title ← textAt info "title"
      let version ← textAt info "version"
      return ⟨title, version, paths⟩

/- The schema that a text describes. -/
def parse (text : List Char) : Except Failure Schema :=
  match Yaml.read text with
  | .ok d => ofDocument d
  | .error .malformed => .error (.schema .malformed)
  | .error e => .error (.document e)

end Schema

end TypedClient
