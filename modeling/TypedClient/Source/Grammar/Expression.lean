import TypedClient.Source.Grammar.Basic

/-
  This file holds the grammar of expressions.

  Key definitions include:
    * `Source.Grammar.ofExpression`
-/

namespace TypedClient

namespace Source

namespace Grammar

open Peg

------------------------------------------------------------
-- Pieces
------------------------------------------------------------

/- A comma and what stands behind it. -/
def behindComma (p : Peg) : Peg :=
  all [word ",", p]

/- Several expressions, the last perhaps with a comma. -/
def tupleOf (p : Peg) : Peg :=
  first [
    node .tuple
      (all [p, several (behindComma p), maybe (word ",")]),
    node .tuple (all [p, word ","]),
    p]

/- A binary operation that is read from the left. -/
def operation (p : Peg) (signs : List String) : Peg :=
  chain p [(.operation, all [oneOf signs, p])]

/- An expression that is not followed by a walrus. -/
def unassigned : Peg :=
  all [expression .single, notAhead (word ":=")]

/- The constants that are keywords. -/
def constants : Peg :=
  first [
    node .trueValue (word "True"),
    node .falseValue (word "False"),
    node .noneValue (word "None")]

/- The second half of a comparison. -/
def compared (signs : List String) : Peg :=
  all (signs.map word ++ [expression .bitOr])

/- The second halves of comparisons. -/
def comparisons : List Peg :=
  [compared ["=="], compared ["!="], compared ["<="],
    compared ["<"], compared [">="], compared [">"],
    compared ["not", "in"],
    node .membership (compared ["in"]),
    compared ["is", "not"], compared ["is"]]

/- One argument that is passed by its place. -/
def placedArgument : Peg :=
  first [
    expression .spread,
    all [
      first [expression .assignment, unassigned],
      notAhead (word "=")]]

/- The conditional expression, a choice or a lambda. -/
def conditionals : List Peg :=
  [node .conditional (all [
      expression .disjunction, word "if",
      expression .disjunction, word "else",
      expression .single]),
    expression .disjunction,
    expression .lambda]

/- A clause of a comprehension. -/
def clauseBody : List Peg :=
  [word "for", target .several, word "in", commit,
    expression .disjunction,
    many (all [word "if", expression .disjunction])]

/- The message of an equals sign in an expression. -/
def equalsMessage : String :=
  "invalid syntax. Maybe you meant '==' or ':=' instead of '='?"

/- The message of a generator among arguments. -/
def generatorMessage : String :=
  "Generator expression must be parenthesized"

/- The message of a tuple in front of a comprehension. -/
def fillingMessage : String :=
  "did you forget parentheses around the comprehension target?"

/- The message of a starred value. -/
def starredValueMessage : String :=
  "cannot use a starred expression in a dictionary value"

/- The message of a key without a value. -/
def missingValueMessage : String :=
  "expression expected after dictionary key and ':'"

------------------------------------------------------------
-- Mistakes
------------------------------------------------------------

/- What is wrong with the arguments of a call. -/
def badArgumentsBody : Peg :=
  first [
    complain (.atMark
        ("iterable argument unpacking follows " ++
          "keyword argument unpacking"))
      (all [
        first [
          all [Peg.list (word ",") placedArgument, word ",",
            expression .keywords],
          expression .keywords],
        mark (word ","),
        Peg.list (word ",")
          (all [expression .spread, notAhead (word "=")])]),
    complain (.atMark generatorMessage)
      (all [mark (expression .single), expression .clauses,
        word ",",
        maybe (first [
          expression .argumentList,
          all [expression .single, expression .clauses]])]),
    complain (.atMark equalsMessage)
      (all [mark name, word "=", expression .single,
        expression .clauses]),
    complain .bareGenerator
      (all [mark (expression .argumentList),
        expression .clauses]),
    complain (.atMark generatorMessage)
      (all [expression .argumentList, word ",",
        mark (expression .single), expression .clauses]),
    complain .placed
      (all [mark (expression .argumentList), word ",",
        expression .argumentList])]

/- What is wrong with an argument that has a name. -/
def badKeywordBody : Peg :=
  first [
    complain (.formed "cannot assign to " "")
      (all [mark constants, word "="]),
    complain (.atMark equalsMessage)
      (all [mark name, word "=", expression .single,
        expression .clauses]),
    complain (.atMark
        ("expression cannot contain assignment, " ++
          "perhaps you meant \"==\"?"))
      (all [notAhead (all [name, word "="]),
        mark (expression .single), word "="])]

/- The names that are keywords at some places. -/
def softKeywords : List String :=
  ["_", "case", "match"]

/- The names with which such a keyword starts. -/
def softStarts : List String :=
  softKeywords.flatMap fun s =>
    (List.range s.length).map fun n =>
      String.ofList (s.toList.take (n + 1))

/- What is wrong with two expressions in a row. -/
def badExpressionBody : Peg :=
  first [
    complain .comma
      (all [
        notAhead (first
          (all [name, strings] :: softStarts.map soft)),
        mark (expression .disjunction),
        expression .plain]),
    complain (.atMark
        "expected 'else' after 'if' expression")
      (all [mark (expression .disjunction), word "if",
        expression .disjunction,
        notAhead (oneOf ["else", ":"])])]

/- What is wrong with an assignment inside an expression. -/
def badNamedBody : Peg :=
  first [
    complain (.formed "cannot use assignment expressions with " "")
      (all [mark (expression .single), word ":=",
        expression .single]),
    complain (.atMark equalsMessage)
      (all [mark name, word "=", expression .bitOr,
        notAhead (oneOf ["=", ":="])]),
    complain (.formed "cannot assign to "
        " here. Maybe you meant '==' instead of '='?")
      (all [
        notAhead (first [
          expression .list, expression .tuple,
          expression .generator, constants]),
        mark (expression .bitOr), word "=", expression .bitOr,
        notAhead (oneOf ["=", ":="])])]

/- What is wrong with a comprehension. -/
def badFillingBody : Peg :=
  first [
    complain (.atMark
        "iterable unpacking cannot be used in comprehension")
      (all [oneOf ["[", "(", openBrace],
        mark (expression .spread), expression .clauses]),
    complain (.atMark fillingMessage)
      (all [oneOf ["[", openBrace],
        mark (expression .starItem), word ",",
        expression .starItems, expression .clauses]),
    complain (.atMark fillingMessage)
      (all [oneOf ["[", openBrace],
        mark (expression .starItem), word ",",
        expression .clauses])]

/- What is wrong with a group. -/
def badGroupBody : Peg :=
  first [
    complain (.atMark "cannot use starred expression here")
      (between "(" ")" [mark (expression .spread)]),
    complain (.atMark "cannot use double starred expression here")
      (between "(" ")" [mark (word "**"), expression .single])]

/- What is wrong with the pairs of a dictionary. -/
def badPairItemsBody : Peg :=
  first [
    all [list (word ",") (expression .pairItem), word ",",
      expression .badPair],
    complain (.atMark starredValueMessage)
      (all [expression .single, word ":", mark (word "*"),
        expression .bitOr]),
    complain (.atMark missingValueMessage)
      (all [expression .single, mark (word ":"),
        ahead (oneOf [closeBrace, ","])])]

/- What is wrong with one pair of a dictionary. -/
def badPairBody : Peg :=
  first [
    complain (.atMark "':' expected after dictionary key")
      (all [mark (expression .single), notAhead (word ":")]),
    complain (.atMark starredValueMessage)
      (all [expression .single, word ":", mark (word "*"),
        expression .bitOr]),
    complain (.atMark missingValueMessage)
      (all [expression .single, mark (word ":"),
        ahead (oneOf [closeBrace, ","])])]

------------------------------------------------------------
-- Rules
------------------------------------------------------------

/- What a rule of expressions accepts. -/
def ofExpression : Rule.Expression → Peg
  | .several => tupleOf (expression .single)
  | .single =>
      first (retry (expression .badExpression) ::
        retry (expression .badStatement) :: conditionals)
  | .plain => calm (first conditionals)
  | .yielded =>
      node .yielded (first [
        all [word "yield", word "from", expression .single],
        all [word "yield", maybe (expression .starSeveral)]])
  | .starSeveral => tupleOf (expression .starSingle)
  | .starSingle =>
      first [
        node .starred (all [word "*", expression .bitOr]),
        expression .single]
  | .starItems => commaList (expression .starItem)
  | .starItem =>
      first [
        node .starred (all [word "*", expression .bitOr]),
        expression .named]
  | .assignment =>
      node .assignment
        (all [name, word ":=", commit, expression .single])
  | .named =>
      first [
        expression .assignment,
        retry (expression .badNamed),
        unassigned]
  | .disjunction =>
      first [
        node .operation (all [expression .conjunction,
          several (all [word "or", expression .conjunction])]),
        expression .conjunction]
  | .conjunction =>
      first [
        node .operation (all [expression .inversion,
          several (all [word "and", expression .inversion])]),
        expression .inversion]
  | .inversion =>
      first [
        node .operation (all [word "not", expression .inversion]),
        expression .comparison]
  | .comparison =>
      first [
        node .comparison
          (all [expression .bitOr, several (first comparisons)]),
        expression .bitOr]
  | .bitOr => operation (expression .bitXor) ["|"]
  | .bitXor => operation (expression .bitAnd) ["^"]
  | .bitAnd => operation (expression .shift) ["&"]
  | .shift => operation (expression .sum) ["<<", ">>"]
  | .sum => operation (expression .product) ["+", "-"]
  | .product =>
      operation (expression .factor) ["*", "/", "//", "%", "@"]
  | .factor =>
      first [
        node .operation
          (all [oneOf ["+", "-", "~"], expression .factor]),
        expression .power]
  | .power =>
      first [
        node .operation
          (all [expression .awaited, word "**", expression .factor]),
        expression .awaited]
  | .awaited =>
      first [
        node .awaited (all [word "await", expression .primary]),
        expression .primary]
  | .primary =>
      chain (expression .atom) [
        (.member, all [word ".", name]),
        (.call, expression .generator),
        (.call, between "(" ")" [maybe (expression .arguments)]),
        (.subscript, between "[" "]" [expression .slices])]
  | .slices =>
      first [
        all [expression .slice, notAhead (word ",")],
        commaList (first [expression .slice, expression .spread])]
  | .slice =>
      first [
        all [maybe (expression .single), word ":",
          maybe (expression .single),
          maybe (all [word ":", maybe (expression .single)])],
        expression .named]
  | .atom =>
      first [
        name,
        constants,
        expression .strings,
        number,
        all [ahead (word "("),
          first [expression .tuple, expression .group,
            expression .generator]],
        all [ahead (word "["),
          first [expression .list, expression .listFilled]],
        all [ahead (word openBrace),
          first [expression .dict, expression .set,
            expression .dictFilled, expression .setFilled]],
        node .ellipsis (word "...")]
  | .group =>
      first [
        between "(" ")"
          [first [expression .yielded, expression .named]],
        retry (expression .badGroup)]
  | .lambda =>
      node .lambda (all [word "lambda",
        maybe (rule (.parameter true .checked)), word ":",
        expression .single])
  | .strings => Peg.strings
  | .list =>
      node .list (between "[" "]" [maybe (expression .starItems)])
  | .tuple =>
      node .tuple (between "(" ")" [
        maybe (all [expression .starItem, word ",",
          maybe (expression .starItems)])])
  | .set =>
      node .set (between openBrace closeBrace
        [expression .starItems])
  | .dict =>
      first [
        node .dict (between openBrace closeBrace
          [maybe (expression .pairItems)]),
        between openBrace closeBrace
          [expression .badPairItems]]
  | .pairItems => commaList (expression .pairItem)
  | .pairItem =>
      first [
        all [word "**", expression .bitOr],
        expression .pair]
  | .pair => all [expression .single, word ":", expression .single]
  | .clauses => several (expression .clause)
  | .clause =>
      first [
        all (word "async" :: clauseBody),
        all clauseBody,
        retry (expression .badLoopTarget)]
  | .listFilled =>
      first [
        node .listFilled (between "[" "]"
          [expression .named, expression .clauses]),
        retry (expression .badFilling)]
  | .setFilled =>
      first [
        node .setFilled (between openBrace closeBrace
          [expression .named, expression .clauses]),
        retry (expression .badFilling)]
  | .generator =>
      first [
        node .generator (between "(" ")" [
          first [expression .assignment, unassigned],
          expression .clauses]),
        retry (expression .badFilling)]
  | .dictFilled =>
      first [
        node .dictFilled (between openBrace closeBrace
          [expression .pair, expression .clauses]),
        retry (expression .badDictFilling)]
  | .arguments =>
      first [
        all [expression .argumentList, maybe (word ","),
          ahead (word ")")],
        retry (expression .badArguments)]
  | .argumentList =>
      node .arguments (first [
        all [Peg.list (word ",") placedArgument,
          maybe (behindComma (expression .keywords))],
        expression .keywords])
  | .keywords =>
      first [
        all [Peg.list (word ",") (expression .keywordOrSpread),
          word ",",
          Peg.list (word ",") (expression .keywordOrUnpacking)],
        Peg.list (word ",") (expression .keywordOrSpread),
        Peg.list (word ",") (expression .keywordOrUnpacking)]
  | .spread =>
      first [
        node .starred (all [word "*", expression .single]),
        complain (.atLast "Invalid star expression") (word "*")]
  | .keywordOrSpread =>
      first [
        retry (expression .badKeyword),
        node .keyword (all [name, word "=", expression .single]),
        expression .spread]
  | .keywordOrUnpacking =>
      first [
        retry (expression .badKeyword),
        node .keyword (all [name, word "=", expression .single]),
        node .unpacking (all [word "**", expression .single])]
  | .badArguments => badArgumentsBody
  | .badKeyword => badKeywordBody
  | .badStatement =>
      complain .statement
        (all [mark name, notAhead (word "("),
          expression .starSeveral])
  | .badExpression => badExpressionBody
  | .badNamed => badNamedBody
  | .badFilling => badFillingBody
  | .badDictFilling =>
      complain (.atMark
          "dict unpacking cannot be used in dict comprehension")
        (all [word openBrace, mark (word "**"), expression .bitOr,
          expression .clauses, word closeBrace])
  | .badGroup => badGroupBody
  | .badPairItems => badPairItemsBody
  | .badPair => badPairBody
  | .badLoopTarget =>
      complain (.target .loop)
        (all [maybe (word "async"), word "for",
          mark (expression .starSeveral)])

end Grammar

end Source

end TypedClient
