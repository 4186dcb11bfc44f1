import TypedClient.Source.Grammar.Tree

/-
  This file defines the language in which the grammar of source
  is written: rules that are tried in order on a list of tokens,
  some of them only to find out what is wrong with a text that
  the others do not accept.

  Key definitions include:
    * `Source.Rule`
    * `Source.Complaint`
    * `Source.Peg`
-/

namespace TypedClient

namespace Source

------------------------------------------------------------
-- Rules
------------------------------------------------------------

/- The rules of expressions. -/
inductive Rule.Expression where
  | several
  | single
  | plain
  | yielded
  | starSeveral
  | starSingle
  | starItems
  | starItem
  | assignment
  | named
  | disjunction
  | conjunction
  | inversion
  | comparison
  | bitOr
  | bitXor
  | bitAnd
  | shift
  | sum
  | product
  | factor
  | power
  | awaited
  | primary
  | slices
  | slice
  | atom
  | group
  | lambda
  | strings
  | list
  | tuple
  | set
  | dict
  | pairItems
  | pairItem
  | pair
  | clauses
  | clause
  | listFilled
  | setFilled
  | generator
  | dictFilled
  | arguments
  | argumentList
  | keywords
  | spread
  | keywordOrSpread
  | keywordOrUnpacking
  | badArguments
  | badKeyword
  | badStatement
  | badExpression
  | badNamed
  | badFilling
  | badDictFilling
  | badGroup
  | badPairItems
  | badPair
  | badLoopTarget
deriving DecidableEq, Repr

/- The rules of what takes a value or is deleted. -/
inductive Rule.Target where
  | several
  | listItems
  | tupleItems
  | single
  | unstarred
  | atom
  | annotated
  | place
  | base
  | suffix
  | deleted
  | deletedItem
  | deletedAtom
deriving DecidableEq, Repr

/- The rules of the parameters of a function. -/
inductive Rule.Parameter where
  | checked
  | list
  | slashPlain
  | slashDefault
  | starRest
  | keywordRest
  | plain
  | plainStarred
  | withDefault
  | maybeDefault
  | bare
  | bareStarred
  | default
  | badList
  | badDefaults
  | badDefault
  | badStarRest
  | badKeywordRest
deriving DecidableEq, Repr

/- The rules of patterns. -/
inductive Rule.Pattern where
  | top
  | single
  | alias
  | either
  | closed
  | literal
  | key
  | complex
  | signed
  | signedReal
  | real
  | imaginary
  | capture
  | target
  | wildcard
  | value
  | dotted
  | nameOrDotted
  | group
  | sequence
  | openSequence
  | items
  | item
  | star
  | mapping
  | pairs
  | pair
  | rest
  | record
  | placed
  | keywords
  | keyword
  | badAlias
  | badRecord
  | badPlaced
deriving DecidableEq, Repr

/- The rules of statements. -/
inductive Rule.Statement where
  | file
  | several
  | single
  | simpleLine
  | simple
  | compound
  | assignment
  | assigned
  | augmentation
  | returning
  | raising
  | globals
  | nonlocals
  | deleting
  | asserting
  | importing
  | importNames
  | importFrom
  | importTargets
  | importList
  | importItem
  | moduleItem
  | moduleName
  | block
  | decorators
  | record
  | recordBody
  | function
  | functionBody
  | conditional
  | alternative
  | otherwise
  | whileLoop
  | forLoop
  | context
  | contextItem
  | attempt
  | handler
  | groupHandler
  | cleanup
  | choice
  | subject
  | branch
  | guard
  | badAssignment
  | badAnnotated
  | badDeletion
  | badBlock
  | badImport
  | badRecord
  | badFunction
  | badConditional
  | badAlternative
  | badOtherwise
  | badWhileLoop
  | badForLoop
  | badContext
  | badContextBlock
  | badContextItem
  | badAttempt
  | badHandler
  | badHandlerBlock
  | badGroupHandlerBlock
  | badCleanup
  | badChoice
  | badBranch
deriving DecidableEq, Repr

/-
  The rules of the grammar.  Parameters come in two styles; the
  parameters of a lambda have no annotations.
-/
inductive Rule where
  | expression (r : Rule.Expression)
  | target (r : Rule.Target)
  | parameter (isLambda : Bool) (r : Rule.Parameter)
  | pattern (r : Rule.Pattern)
  | statement (r : Rule.Statement)
deriving DecidableEq, Repr

------------------------------------------------------------
-- Complaints
------------------------------------------------------------

/-
  What is wrong with a text that a rule for mistakes accepts.

    * `atMark`: a message about the marked part
    * `atLast`: a message about the last token that was read
    * `noBlock`: the marked part has no indented block
    * `formed`: a message around what the marked part is called
    * `target`: a part of the marked part is no target
    * `comma`: the marked part may lack a comma behind it
    * `statement`: the marked name needs parentheses
    * `bareGenerator`: a generator stands among other arguments
    * `placed`: an argument comes too late to have a place
-/
inductive Complaint where
  | atMark (message : String)
  | atLast (message : String)
  | noBlock (owner : String)
  | formed (before behind : String)
  | target (use : Tree.Use)
  | comma
  | statement
  | bareGenerator
  | placed
deriving DecidableEq, Repr

------------------------------------------------------------
-- Expressions of the grammar
------------------------------------------------------------

/-
  What a rule accepts.

    * `name`, `number`, `imaginary`, `newline`, `indent`, `dedent`
      and `finish` are tokens
    * `strings` is one string literal or several in a row
    * `word` is a keyword or a symbol, `soft` a name
    * `all` takes its parts one after another
    * `first` takes the first of its parts that is accepted
    * `many` takes any number of its part
    * `ahead` and `notAhead` only look
    * `force` is a word that has to come
    * `commit` rules out the other choices
    * `chain` takes any number of links behind its first part
    * `node` gives a form to what it takes, and `quiet` keeps
      nothing of it
    * `retry` is accepted only in search of a mistake, and `calm`
      searches for none
    * `complain` has found a mistake
-/
inductive Peg where
  | name
  | number
  | imaginary
  | strings
  | newline
  | indent
  | dedent
  | finish
  | word (s : String)
  | soft (s : String)
  | rule (r : Rule)
  | all (ps : List Peg)
  | first (ps : List Peg)
  | many (p : Peg)
  | ahead (p : Peg)
  | notAhead (p : Peg)
  | force (s : String)
  | commit
  | chain (p : Peg) (links : List (Tree.Form × Peg))
  | node (f : Tree.Form) (p : Peg)
  | quiet (p : Peg)
  | retry (p : Peg)
  | calm (p : Peg)
  | complain (c : Complaint) (p : Peg)

namespace Peg

/- A rule of expressions. -/
def expression (r : Rule.Expression) : Peg :=
  rule (.expression r)

/- A rule of targets. -/
def target (r : Rule.Target) : Peg :=
  rule (.target r)

/- A rule of patterns. -/
def pattern (r : Rule.Pattern) : Peg :=
  rule (.pattern r)

/- A rule of statements. -/
def statement (r : Rule.Statement) : Peg :=
  rule (.statement r)

/- The part that a mistake is about. -/
def mark (p : Peg) : Peg :=
  node .mark p

/- A part that may be missing. -/
def maybe (p : Peg) : Peg :=
  first [p, all []]

/- A part at least once. -/
def several (p : Peg) : Peg :=
  all [p, many p]

/- A part at least once, with a separator between each two. -/
def list (separator p : Peg) : Peg :=
  all [p, many (all [separator, p])]

/- One of several words. -/
def oneOf (ss : List String) : Peg :=
  first (ss.map word)

/- Parts between two words. -/
def between (opening closing : String) (ps : List Peg) : Peg :=
  all (word opening :: ps ++ [word closing])

/- The opening brace. -/
def openBrace : String :=
  "\x7b"

/- The closing brace. -/
def closeBrace : String :=
  "\x7d"

/- Parts with commas between and perhaps behind them. -/
def commaList (p : Peg) : Peg :=
  all [list (word ",") p, maybe (word ",")]

end Peg

end Source

end TypedClient
