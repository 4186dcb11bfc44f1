import TypedClient.Text.CodePoint

/-
  This file defines the tokens of a YAML stream.  Blocks are
  delimited by tokens of their own, so that indentation does not
  matter behind them.

  Key definitions include:
    * `Yaml.Token`
-/

namespace TypedClient

namespace Yaml

/-
  A token.  A tag has a handle unless it was written in full, and
  a scalar is `plain` if it was written without quotes.
-/
inductive Token where
  | streamEnd
  | versionDirective (major : Nat)
  | tagDirective (handle start : List Char)
  | otherDirective
  | documentStart
  | documentEnd
  | blockSequenceStart
  | blockMappingStart
  | blockEnd
  | flowSequenceStart
  | flowSequenceEnd
  | flowMappingStart
  | flowMappingEnd
  | blockEntry
  | flowEntry
  | key
  | value
  | alias (name : List Char)
  | anchor (name : List Char)
  | tag (handle : Option (List Char)) (suffix : List Char)
  | scalar (isPlain : Bool) (text : RawText)
deriving DecidableEq, Repr

end Yaml

end TypedClient
