import TypedClient.Source.Grammar.Basic

/-
  This file holds the grammar of statements.

  Key definitions include:
    * `Source.Grammar.ofStatement`
-/

namespace TypedClient

namespace Source

namespace Grammar

open Peg

------------------------------------------------------------
-- Pieces
------------------------------------------------------------

/- A value that is assigned. -/
def assignedValue : Peg :=
  first [expression .yielded, expression .starSeveral]

/- The annotation of a target, and perhaps its value. -/
def annotated : Peg :=
  all [word ":", expression .single,
    maybe (all [word "=", statement .assigned])]

/- The signs that change a value. -/
def augmentations : List String :=
  ["+=", "-=", "*=", "@=", "/=", "%=", "&=", "|=", "^=", "<<=",
    ">>=", "**=", "//="]

/- A colon and a block. -/
def colonBlock : List Peg :=
  [word ":", statement .block]

/- A colon that has to come, and a block. -/
def forcedBlock : List Peg :=
  [force ":", statement .block]

/- The name that something is given. -/
def givenName : Peg :=
  maybe (all [word "as", name])

/- The dots in front of the name of a module. -/
def dots : Peg :=
  oneOf [".", "..."]

/- Contexts with a name each, as they are read for mistakes. -/
def looseContexts (p : Peg) : Peg :=
  Peg.list (word ",")
    (all [p, maybe (all [word "as", target .single])])

/- A statement that may be asynchronous. -/
def maybeAsync (ps : List Peg) : Peg :=
  all (maybe (word "async") :: ps)

------------------------------------------------------------
-- Mistakes
------------------------------------------------------------

/- A header that ends without a colon. -/
def noColon (ps : List Peg) : Peg :=
  complain (.atLast "expected ':'") (all (ps ++ [newline]))

/- A header that is not followed by an indented block. -/
def noBlock (owner : String) (ps : List Peg) : Peg :=
  complain (.noBlock owner)
    (all (ps ++ [word ":", newline, notAhead indent]))

/- The block of a statement that starts with a keyword. -/
def noBlockBehind (keyword : String) (ps : List Peg) : Peg :=
  noBlock ("'" ++ keyword ++ "' statement")
    (mark (word keyword) :: ps)

/- What is wrong with a statement of a keyword and a test. -/
def badTest (keyword : String) : Peg :=
  first [
    noColon [word keyword, expression .named],
    noBlockBehind keyword [expression .named]]

/- What is wrong with an assignment. -/
def badAssignmentBody : Peg :=
  let earlier := many (all [target .several, word "="])
  first [
    complain (.formed "only single target (not "
        ") can be annotated")
      (all [mark (statement .badAnnotated), word ":",
        expression .single]),
    complain (.atMark
        "only single target (not tuple) can be annotated")
      (all [mark (expression .starItem), word ",",
        many (expression .starItems), word ":",
        expression .single]),
    complain (.atMark "illegal target for annotation")
      (all [mark (expression .single), word ":",
        expression .single]),
    complain (.target .assign)
      (all [earlier, mark (expression .starSeveral), word "="]),
    complain (.atMark
        "assignment to yield expression not possible")
      (all [earlier, mark (expression .yielded), word "="]),
    complain (.formed "'"
        "' is an illegal expression for augmented assignment")
      (all [mark (expression .starSeveral),
        statement .augmentation, assignedValue])]

/- What is wrong with a context. -/
def badContextBody : Peg :=
  first [
    complain (.atLast "expected ':'")
      (maybeAsync [word "with", looseContexts (expression .single),
        newline]),
    complain (.atLast "expected ':'")
      (maybeAsync [word "with",
        between "(" ")" [looseContexts (expression .several),
          maybe (word ",")],
        newline])]

/- What is wrong with the block of a context. -/
def badContextBlockBody : Peg :=
  let owner := "'with' statement"
  let here := [maybe (word "async"), mark (word "with")]
  first [
    noBlock owner (here ++ [looseContexts (expression .single)]),
    noBlock owner (here ++ [
      between "(" ")" [looseContexts (expression .several),
        maybe (word ",")]])]

/- What is wrong with an attempt. -/
def badAttemptBody : Peg :=
  let mixed :=
    "cannot have both 'except' and 'except*' on the same 'try'"
  first [
    noBlockBehind "try" [],
    complain (.atLast "expected 'except' or 'finally' block")
      (all [word "try", word ":", statement .block,
        notAhead (oneOf ["except", "finally"])]),
    complain (.atMark mixed)
      (all [word "try", word ":", many (statement .block),
        several (statement .handler), mark (word "except"),
        word "*", expression .single, givenName, word ":"]),
    complain (.atMark mixed)
      (all [word "try", word ":", many (statement .block),
        several (statement .groupHandler), mark (word "except"),
        maybe (all [expression .single, givenName]), word ":"])]

/- What is wrong with a handler. -/
def badHandlerBody : Peg :=
  let star := maybe (word "*")
  first [
    complain (.atMark
        "multiple exception types must be parenthesized")
      (all [word "except", star, mark (expression .single),
        word ",", expression .several, givenName, word ":"]),
    noColon [word "except", star, expression .single, givenName],
    noColon [word "except"],
    complain (.atLast "expected one or more exception types")
      (all [word "except", word "*",
        first [newline, word ":"]])]

------------------------------------------------------------
-- Compound statements
------------------------------------------------------------

/- The body of a function. -/
def functionParts : List Peg :=
  [word "def", name, force "(",
    maybe (rule (.parameter false .checked)), word ")",
    maybe (all [word "->", expression .single])] ++ forcedBlock

/- A loop over something. -/
def loopParts : List Peg :=
  [word "for", target .several, word "in", commit,
    expression .starSeveral] ++ colonBlock ++
    [maybe (statement .otherwise)]

/- A statement with a test and what follows if it fails. -/
def testParts (keyword : String) (rest : Peg) : Peg :=
  all ([word keyword, expression .named] ++ colonBlock ++ [rest])

/- Contexts in parentheses. -/
def closedContexts : List Peg :=
  [word "with",
    between "(" ")" [commaList (statement .contextItem)]] ++
    colonBlock

/- Contexts without parentheses. -/
def openContexts : List Peg :=
  [word "with", Peg.list (word ",") (statement .contextItem)] ++
    colonBlock

/- An attempt up to its block. -/
def attemptParts : List Peg :=
  word "try" :: forcedBlock

/- What may follow the handlers of an attempt. -/
def attemptEnd : List Peg :=
  [maybe (statement .otherwise), maybe (statement .cleanup)]

/- The header of a class. -/
def recordHeader (first : Peg) : List Peg :=
  [first, name, maybe (between "(" ")"
    [maybe (expression .arguments)])]

/- The compound statements, told apart by how they start. -/
def compounds : List Peg :=
  [all [ahead (oneOf ["def", "@", "async"]), statement .function],
    all [ahead (word "if"), statement .conditional],
    all [ahead (oneOf ["class", "@"]), statement .record],
    all [ahead (oneOf ["with", "async"]), statement .context],
    all [ahead (oneOf ["for", "async"]), statement .forLoop],
    all [ahead (word "try"), statement .attempt],
    all [ahead (word "while"), statement .whileLoop],
    statement .choice]

/- The simple statements, told apart by how they start. -/
def simples : List Peg :=
  [statement .assignment,
    expression .starSeveral,
    all [ahead (word "return"), statement .returning],
    all [ahead (oneOf ["import", "from"]), statement .importing],
    all [ahead (word "raise"), statement .raising],
    word "pass",
    all [ahead (word "del"), statement .deleting],
    all [ahead (word "yield"), expression .yielded],
    all [ahead (word "assert"), statement .asserting],
    word "break",
    word "continue",
    all [ahead (word "global"), statement .globals],
    all [ahead (word "nonlocal"), statement .nonlocals]]

------------------------------------------------------------
-- Rules
------------------------------------------------------------

/- What a rule of statements accepts. -/
def ofStatement : Rule.Statement → Peg
  | .file => all [maybe (statement .several), finish]
  | .several => several (quiet (statement .single))
  | .single =>
      first [statement .compound, statement .simpleLine]
  | .simpleLine =>
      first [
        all [statement .simple, notAhead (word ";"), newline],
        all [Peg.list (word ";") (statement .simple),
          maybe (word ";"), newline]]
  | .simple => first simples
  | .compound => first compounds
  | .assignment =>
      first [
        all [name, annotated],
        all [first [
            between "(" ")" [target .annotated],
            target .place],
          annotated],
        all [several (all [target .several, word "="]),
          assignedValue, notAhead (word "=")],
        all [target .annotated, statement .augmentation, commit,
          assignedValue],
        retry (statement .badAssignment)]
  | .assigned => assignedValue
  | .augmentation => oneOf augmentations
  | .returning =>
      all [word "return", maybe (expression .starSeveral)]
  | .raising =>
      first [
        all [word "raise", expression .single,
          maybe (all [word "from", expression .single])],
        word "raise"]
  | .globals => all [word "global", Peg.list (word ",") name]
  | .nonlocals => all [word "nonlocal", Peg.list (word ",") name]
  | .deleting =>
      first [
        all [word "del", target .deleted,
          ahead (first [word ";", newline])],
        retry (statement .badDeletion)]
  | .asserting =>
      all [word "assert", expression .single,
        maybe (all [word ",", expression .single])]
  | .importing =>
      first [statement .importNames, statement .importFrom]
  | .importNames =>
      all [word "import",
        Peg.list (word ",") (statement .moduleItem)]
  | .importFrom =>
      first [
        all [word "from", many dots, statement .moduleName,
          word "import", statement .importTargets],
        all [word "from", several dots, word "import",
          statement .importTargets]]
  | .importTargets =>
      first [
        between "(" ")"
          [statement .importList, maybe (word ",")],
        all [statement .importList, notAhead (word ",")],
        word "*",
        retry (statement .badImport)]
  | .importList =>
      Peg.list (word ",") (statement .importItem)
  | .importItem => all [name, givenName]
  | .moduleItem => all [statement .moduleName, givenName]
  | .moduleName => all [name, many (all [word ".", name])]
  | .block =>
      first [
        all [newline, indent, statement .several, dedent],
        statement .simpleLine,
        retry (statement .badBlock)]
  | .decorators =>
      several (all [word "@", expression .named, newline])
  | .record =>
      first [
        all [statement .decorators, statement .recordBody],
        statement .recordBody]
  | .recordBody =>
      first [
        retry (statement .badRecord),
        all (recordHeader (word "class") ++ colonBlock)]
  | .function =>
      first [
        all [statement .decorators, statement .functionBody],
        statement .functionBody]
  | .functionBody =>
      first [
        retry (statement .badFunction),
        all functionParts,
        all (word "async" :: functionParts)]
  | .conditional =>
      first [
        retry (statement .badConditional),
        testParts "if" (statement .alternative),
        testParts "if" (maybe (statement .otherwise))]
  | .alternative =>
      first [
        retry (statement .badAlternative),
        testParts "elif" (statement .alternative),
        testParts "elif" (maybe (statement .otherwise))]
  | .otherwise =>
      first [
        retry (statement .badOtherwise),
        all (word "else" :: forcedBlock)]
  | .whileLoop =>
      first [
        retry (statement .badWhileLoop),
        testParts "while" (maybe (statement .otherwise))]
  | .forLoop =>
      first [
        retry (statement .badForLoop),
        all loopParts,
        all (word "async" :: loopParts),
        retry (expression .badLoopTarget)]
  | .context =>
      first [
        retry (statement .badContextBlock),
        all closedContexts,
        all openContexts,
        all (word "async" :: closedContexts),
        all (word "async" :: openContexts),
        retry (statement .badContext)]
  | .contextItem =>
      first [
        all [expression .single, word "as", target .single,
          ahead (oneOf [",", ")", ":"])],
        retry (statement .badContextItem),
        expression .single]
  | .attempt =>
      first [
        retry (statement .badAttempt),
        all (attemptParts ++ [statement .cleanup]),
        all (attemptParts ++ [several (statement .handler)] ++
          attemptEnd),
        all (attemptParts ++ [several (statement .groupHandler)] ++
          attemptEnd)]
  | .handler =>
      first [
        retry (statement .badHandlerBlock),
        all ([word "except", expression .single, givenName] ++
          colonBlock),
        all (word "except" :: colonBlock),
        retry (statement .badHandler)]
  | .groupHandler =>
      first [
        retry (statement .badGroupHandlerBlock),
        all ([word "except", word "*", expression .single,
          givenName] ++ colonBlock),
        retry (statement .badHandler)]
  | .cleanup =>
      first [
        retry (statement .badCleanup),
        all (word "finally" :: forcedBlock)]
  | .choice =>
      first [
        all [soft "match", statement .subject, word ":", newline,
          indent, several (statement .branch), dedent],
        retry (statement .badChoice)]
  | .subject =>
      first [
        all [expression .starItem, word ",",
          maybe (expression .starItems)],
        expression .named]
  | .branch =>
      first [
        retry (statement .badBranch),
        all ([soft "case", pattern .top,
          maybe (statement .guard)] ++ colonBlock)]
  | .guard => all [word "if", expression .named]
  | .badAssignment => badAssignmentBody
  | .badAnnotated =>
      first [
        expression .list,
        expression .tuple,
        between "(" ")" [statement .badAnnotated]]
  | .badDeletion =>
      complain (.target .delete)
        (all [word "del", mark (expression .starSeveral)])
  | .badBlock =>
      complain (.atLast "expected an indented block")
        (all [newline, notAhead indent])
  | .badImport =>
      complain (.atLast
          ("trailing comma not allowed without surrounding " ++
            "parentheses"))
        (all [statement .importList, word ",", newline])
  | .badRecord =>
      first [
        noColon (recordHeader (word "class")),
        noBlock "class definition"
          (recordHeader (mark (word "class")))]
  | .badFunction =>
      noBlock "function definition"
        [maybe (word "async"), mark (word "def"), name, word "(",
          maybe (rule (.parameter false .checked)), word ")",
          maybe (all [word "->", expression .single])]
  | .badConditional => badTest "if"
  | .badAlternative => badTest "elif"
  | .badOtherwise => noBlockBehind "else" []
  | .badWhileLoop => badTest "while"
  | .badForLoop =>
      let behind := [target .several, word "in",
        expression .starSeveral]
      first [
        noColon ([maybe (word "async"), word "for"] ++ behind),
        noBlock "'for' statement"
          ([maybe (word "async"), mark (word "for")] ++ behind)]
  | .badContext => badContextBody
  | .badContextBlock => badContextBlockBody
  | .badContextItem =>
      complain (.target .assign)
        (all [expression .single, word "as",
          mark (expression .single),
          ahead (oneOf [",", ")", ":"])])
  | .badAttempt => badAttemptBody
  | .badHandler => badHandlerBody
  | .badHandlerBlock =>
      first [
        noBlockBehind "except" [expression .single, givenName],
        noBlockBehind "except" []]
  | .badGroupHandlerBlock =>
      noBlock "'except*' statement"
        [mark (word "except"), word "*", expression .single,
          givenName]
  | .badCleanup => noBlockBehind "finally" []
  | .badChoice =>
      first [
        noColon [soft "match", statement .subject],
        noBlock "'match' statement"
          [mark (soft "match"), statement .subject]]
  | .badBranch =>
      let header (p : Peg) : List Peg :=
        [p, pattern .top, maybe (statement .guard)]
      first [
        noColon (header (soft "case")),
        noBlock "'case' statement" (header (mark (soft "case")))]

end Grammar

end Source

end TypedClient
