import TypedClient.Text.Split

/-
  This file derives the Pascal-case name of a raw text: its runs
  of ASCII letters and digits, joined, each with a capital.

  Key definitions include:
    * `Name.pascal`
    * `Name.guardDigit`
-/

namespace TypedClient

namespace Name

------------------------------------------------------------
-- Pascal case
------------------------------------------------------------

/- Text with its first letter as a capital. -/
def capitalize : List Char → List Char
  | [] => []
  | c :: cs => c.toUpper :: cs

/- Whether letters and digits are an acronym, such as `ID`. -/
def isAcronym (run : List Char) : Bool :=
  run.length ≤ 3 && run.map Char.toUpper = run

/- Letters and digits as they stand in a name. -/
def pascalRun (run : List Char) : List Char :=
  if isAcronym run then run else capitalize run

/- Acronyms start with a capital in any case. -/
theorem pascalRun_eq_capitalize (run : List Char) :
    pascalRun run = capitalize run := by
  unfold pascalRun
  split
  next hAcronym =>
    have hUpper : run.map Char.toUpper = run :=
      of_decide_eq_true (Bool.and_eq_true_iff.1 hAcronym).2
    cases run with
    | nil => rfl
    | cons c cs => rw [capitalize, (List.cons.inj hUpper).1]
  next => rfl

/-
  The runs of ASCII letters and digits in one word: acronyms as
  they are, and any other run with a capital.
-/
def pascalChars (raw : List Char) : List Char :=
  match (Text.runs Char.isAlphanum raw).flatMap pascalRun with
  | [] => ['X']
  | cs => cs

/- Without a difference, every run gets a capital. -/
theorem pascalChars_eq (raw : List Char) :
    pascalChars raw =
      match (Text.runs Char.isAlphanum raw).flatMap capitalize with
      | [] => ['X']
      | cs => cs := by
  rw [pascalChars, funext pascalRun_eq_capitalize]

/- The Pascal-case name of a raw text. -/
def pascal (raw : String) : String :=
  String.ofList (pascalChars raw.toList)

------------------------------------------------------------
-- Leading digits
------------------------------------------------------------

/- Text with `mark` in front of it if it starts with a digit. -/
def guardDigitChars (mark : Char) : List Char → List Char
  | [] => []
  | c :: cs => if c.isDigit then mark :: c :: cs else c :: cs

/- A name with `mark` in front of it if it starts with a digit. -/
def guardDigit (mark : Char) (name : String) : String :=
  String.ofList (guardDigitChars mark name.toList)

end Name

end TypedClient
