import TypedClient.Emit.Text
import TypedClient.Shape.Basic
import TypedClient.Text.Blank

/-
  This file emits the unit of models: one class a record, with
  one attribute a field that is read by the field's key alone.

  Key definitions include:
    * `Emit.sourceLine`
    * `Emit.fieldLine`
    * `Emit.recordLines`
    * `Emit.models`
-/

namespace TypedClient

namespace Emit

open Shape (Field Record)

/-
  The comment that names the schema, with one blank between each
  two words; nothing if there are no words.
-/
def sourceLine (title version : RawText) : RawText :=
  let words := Text.words (title ++ RawText.ofString " " ++ version)
  if words.isEmpty then []
  else
    RawText.ofString "# Source: " ++
      List.intercalate (RawText.ofString " ") words

/- The type of a field, which may be absent. -/
def fieldType (s : Shape) : String :=
  if s = Shape.untyped then s.render
  else s.render ++ " | None"

/- The line of a field. -/
def fieldLine (f : Field) : String :=
  "    " ++ f.attr ++ ": " ++ fieldType f.shape ++
    " = Field(default=None, alias=" ++ rawLiteral f.key ++ ")"

/- The lines of a record. -/
def recordLines (r : Record) : List String :=
  ("class " ++ r.name ++ "(BaseModel):") ::
    r.fields.map fieldLine

/- The line that resolves the references of a record. -/
def rebuildLine (r : Record) : String :=
  r.name ++ ".model_rebuild()"

/- The imports of the models. -/
def modelsImports : List String :=
  ["",
    "from __future__ import annotations",
    "",
    "from typing import Any",
    "",
    "from pydantic import BaseModel, Field"]

/- The lines above the models. -/
def modelsPreamble (title version : RawText) : List RawText :=
  let source := sourceLine title version
  RawText.ofString header ::
    (if source.isEmpty then [] else [source]) ++
    plain modelsImports

/- The lines of all records. -/
def recordsLines (records : List Record) : List String :=
  (records.flatMap fun r => "" :: "" :: recordLines r) ++
    (if records.isEmpty then []
      else "" :: "" :: records.map rebuildLine)

/- The lines of the models. -/
def modelsLines
    (records : List Record)
    (title version : RawText) : List RawText :=
  modelsPreamble title version ++ plain (recordsLines records)

/- The unit of models, in the order of the records. -/
def models
    (records : List Record)
    (title version : RawText) : RawText :=
  unitText (modelsLines records title version)

end Emit

end TypedClient
