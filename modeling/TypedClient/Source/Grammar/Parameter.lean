import TypedClient.Source.Grammar.Basic

/-
  This file holds the grammar of parameters, of functions and of
  lambdas.  The two differ in what ends the parameters and in
  annotations.

  Key definitions include:
    * `Source.Grammar.ofParameter`
-/

namespace TypedClient

namespace Source

namespace Grammar

open Peg

------------------------------------------------------------
-- Pieces
------------------------------------------------------------

/- What stands behind the parameters. -/
def closing (isLambda : Bool) : String :=
  if isLambda then ":" else ")"

/-
  A parameter with what has to stand behind it.  The parameters of
  a function are read one token ahead, behind the comma.
-/
def closed (isLambda : Bool) (p : Peg) : Peg :=
  let behind := if isLambda then all [] else maybe (ahead finish)
  first [
    all [p, word ",", behind],
    all [p, ahead (word (closing isLambda))]]

/- Parameters with the slash behind them. -/
def slashed (isLambda : Bool) (ps : List Peg) : Peg :=
  first [
    all (ps ++ [word "/", word ","]),
    all (ps ++ [word "/", ahead (word (closing isLambda))])]

/- What the parameters belong to, in a message. -/
def owner (isLambda : Bool) : String :=
  if isLambda then "Lambda expression" else "Function"

------------------------------------------------------------
-- Mistakes
------------------------------------------------------------

/- What is wrong with parameters. -/
def badListBody (isLambda : Bool) : Peg :=
  let p (r : Rule.Parameter) : Peg := rule (.parameter isLambda r)
  let group : Peg :=
    if isLambda then Peg.list (word ",") (p .bare)
    else several (p .plain)
  first [
    complain (.atMark
        "non-default argument follows default argument")
      (all [many (p .plain), p .badDefaults, mark (p .plain)]),
    complain (.atMark
        (owner isLambda ++ " parameters cannot be parenthesized"))
      (all [many (p .plain), mark (word "("), group,
        maybe (word ","), word ")"]),
    complain (.atMark "at least one argument must precede /")
      (all [mark (word "/"), word ","]),
    complain (.atMark "/ may appear only once")
      (all [first [p .slashPlain, p .slashDefault],
        many (p .maybeDefault), mark (word "/")]),
    complain (.atMark "/ must be ahead of *")
      (all [maybe (first [p .slashPlain, p .slashDefault]),
        many (p .maybeDefault), word "*",
        first [word ",", p .plain],
        many (p .maybeDefault), mark (word "/")]),
    complain (.atMark "expected comma between / and *")
      (all [several (p .maybeDefault), word "/", mark (word "*")])]

/- What is wrong with parameters behind a star. -/
def badStarRestBody (isLambda : Bool) : Peg :=
  let p (r : Rule.Parameter) : Peg := rule (.parameter isLambda r)
  let stop := word (closing isLambda)
  let bareStar :=
    first [stop, all [word ",", first [stop, word "**"]]]
  let bareMessage := "named arguments must follow bare *"
  first [
    if isLambda then
      complain (.atLast bareMessage) (all [word "*", bareStar])
    else
      complain (.atMark bareMessage)
        (all [mark (word "*"), bareStar]),
    complain (.atMark
        "var-positional argument cannot have default value")
      (all [word "*", p .bare, mark (word "=")]),
    complain (.atMark "* argument may appear only once")
      (all [word "*", first [p .plain, word ","],
        many (p .maybeDefault), mark (word "*"),
        first [p .plain, word ","]])]

/- What is wrong with parameters behind two stars. -/
def badKeywordRestBody (isLambda : Bool) : Peg :=
  let p (r : Rule.Parameter) : Peg := rule (.parameter isLambda r)
  let late := "arguments cannot follow var-keyword argument"
  first [
    complain (.atMark
        "var-keyword argument cannot have default value")
      (all [word "**", p .bare, mark (word "=")]),
    complain (.atMark late)
      (all [word "**", p .bare, word ",", mark (p .bare)]),
    complain (.atMark late)
      (all [word "**", p .bare, word ",",
        mark (oneOf ["*", "**", "/"])])]

------------------------------------------------------------
-- Rules
------------------------------------------------------------

/- What a rule of parameters accepts. -/
def ofParameter (isLambda : Bool) : Rule.Parameter → Peg :=
  let p (r : Rule.Parameter) : Peg := rule (.parameter isLambda r)
  let starRest? := maybe (p .starRest)
  fun
  | .checked => first [retry (p .badList), p .list]
  | .list =>
      first [
        all [p .slashPlain, many (p .plain), many (p .withDefault),
          starRest?],
        all [p .slashDefault, many (p .withDefault), starRest?],
        all [several (p .plain), many (p .withDefault), starRest?],
        all [several (p .withDefault), starRest?],
        p .starRest]
  | .slashPlain => slashed isLambda [several (p .plain)]
  | .slashDefault =>
      slashed isLambda [many (p .plain), several (p .withDefault)]
  | .starRest =>
      first [
        retry (p .badStarRest),
        all [word "*", p .plain, many (p .maybeDefault),
          maybe (p .keywordRest)],
        all [word "*", p .plainStarred, many (p .maybeDefault),
          maybe (p .keywordRest)],
        all [word "*", word ",", several (p .maybeDefault),
          maybe (p .keywordRest)],
        p .keywordRest]
  | .keywordRest =>
      first [
        retry (p .badKeywordRest),
        all [word "**", p .plain]]
  | .plain => closed isLambda (p .bare)
  | .plainStarred => closed isLambda (p .bareStarred)
  | .withDefault => closed isLambda (all [p .bare, p .default])
  | .maybeDefault =>
      closed isLambda (all [p .bare, maybe (p .default)])
  | .bare =>
      if isLambda then name
      else
        all [name,
          maybe (all [word ":", expression .single])]
  | .bareStarred =>
      if isLambda then first []
      else all [name, word ":", expression .starSingle]
  | .default =>
      first [
        all [word "=", expression .single],
        retry (p .badDefault)]
  | .badList => badListBody isLambda
  | .badDefaults =>
      first [p .slashDefault, several (p .withDefault)]
  | .badDefault =>
      complain (.atMark "expected default value expression")
        (all [mark (word "="), ahead (oneOf [")", ","])])
  | .badStarRest => badStarRestBody isLambda
  | .badKeywordRest => badKeywordRestBody isLambda

end Grammar

end Source

end TypedClient
