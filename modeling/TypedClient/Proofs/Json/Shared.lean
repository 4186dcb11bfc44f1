import TypedClient.Proofs.Json.Grammar
import TypedClient.Yaml.Cursor

/-
  This file says which JSON texts are YAML texts of the same
  meaning.  YAML takes no tabs between tokens, reads a number with
  an exponent as a text unless it has a point and a sign, has no
  words for numbers, allows fewer characters in a text, and wants
  a key and its colon close together on one line.

  Key definitions include:
    * `Json.Spelling.IsShared`
    * `Json.Numeral.IsShared`
    * `Json.Key.IsShared`
    * `Json.Source.IsShared`
    * `Json.Written.IsShared`
-/

namespace TypedClient

namespace Json

/- White space without tabs. -/
def Gap.IsShared (g : Gap) : Prop :=
  '\t' ∉ g.chars

/-
  A part of a string that YAML spells in the same way: a character
  that it allows and that breaks no line, or an escape, but of no
  surrogate.
-/
def Part.IsShared : Part → Prop
  | plain c _ _ _ => Yaml.isAllowed c = true ∧ Yaml.isBreak c = false
  | letter _ _ _ => True
  | unit _ _ _ _ u _ => ¬ (0xD800 ≤ u ∧ u < 0xE000)

/- A spelling all of whose parts are shared. -/
def Spelling.IsShared (s : Spelling) : Prop :=
  ∀ p ∈ s, p.IsShared

/- A number whose exponent has a sign and stands behind a point. -/
def Numeral.IsShared (n : Numeral) : Prop :=
  ∀ e ∈ n.exponent, n.fraction ≠ [] ∧ e.sign.isSome = true

/- The farthest that a colon may be from the start of its key. -/
def maxKeyLength : Nat :=
  1024

/- A key with its colon on the same line, and not far behind. -/
structure Key.IsShared (k : Key) : Prop where
  spelling : k.spelling.IsShared
  line : ∀ c ∈ k.before.chars, c = ' '
  near : k.spelling.quoted.length + k.before.chars.length ≤
    maxKeyLength
  after : k.after.IsShared

mutual

/- Whether all that is written in a value is shared. -/
def Source.IsShared : Source → Prop
  | .word w _ => w.1 ∈ ["null", "true", "false"]
  | .number n => n.IsShared
  | .string s => s.IsShared
  | .emptyArray g => g.IsShared
  | .array g v others => g.IsShared ∧ v.IsShared ∧ others.IsShared
  | .emptyObject g => g.IsShared
  | .object g k v others =>
      g.IsShared ∧ k.IsShared ∧ v.IsShared ∧ others.IsShared

/- Whether all that is written in the rest of an array is. -/
def Items.IsShared : Items → Prop
  | .nil g => g.IsShared
  | .cons g a v others =>
      g.IsShared ∧ a.IsShared ∧ v.IsShared ∧ others.IsShared

/- Whether all that is written in the rest of an object is. -/
def Members.IsShared : Members → Prop
  | .nil g => g.IsShared
  | .cons g a k v others =>
      g.IsShared ∧ a.IsShared ∧ k.IsShared ∧ v.IsShared ∧
        others.IsShared

end

/- The deepest nesting that both formats read. -/
def sharedDepth : Nat :=
  480

/- A text that is shared, and not nested too deeply. -/
structure Written.IsShared (w : Written) : Prop where
  before : w.before.IsShared
  source : w.source.IsShared
  after : w.after.IsShared
  nesting : w.source.nesting < sharedDepth

end Json

end TypedClient
