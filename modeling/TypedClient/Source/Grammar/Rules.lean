import TypedClient.Source.Grammar.Expression
import TypedClient.Source.Grammar.Parameter
import TypedClient.Source.Grammar.Pattern
import TypedClient.Source.Grammar.Statement
import TypedClient.Source.Grammar.Target

/-
  This file collects the grammar of source.

  Key definitions include:
    * `Source.Rule.body`
    * `Source.Rule.isKept`
-/

namespace TypedClient

namespace Source

namespace Rule

/- What a rule accepts. -/
def body : Rule → Peg
  | expression r => Grammar.ofExpression r
  | target r => Grammar.ofTarget r
  | parameter isLambda r => Grammar.ofParameter isLambda r
  | pattern r => Grammar.ofPattern r
  | statement r => Grammar.ofStatement r

/-
  Whether the result of a rule at a token is kept, so that it
  need not be tried there again.
-/
def isKept : Rule → Bool
  | expression r =>
      r ∈ [.single, .starSingle, .disjunction, .conjunction,
        .inversion, .bitOr, .bitXor, .bitAnd, .shift, .sum,
        .product, .factor, .awaited, .primary, .strings,
        .arguments, .badNamed]
  | target r => r ∈ [.single, .unstarred, .base, .deletedItem]
  | parameter _ _ => false
  | pattern r =>
      r ∈ [.closed, .star, .dotted, .nameOrDotted]
  | statement r => r ∈ [.simple, .block, .moduleName]

end Rule

end Source

end TypedClient
