import TypedClient.CommandLine.Help
import TypedClient.Document.Label
import TypedClient.Package.FileTree

/-
  This file reads command lines: a command, then options in any
  order.  An option that is not given takes its value from the
  environment, and then from its default.

  Key definitions include:
    * `CommandLine.Command`
    * `CommandLine.Setting`
    * `CommandLine.Mistake`
    * `CommandLine.Mistake.message`
    * `CommandLine.Scan`
    * `CommandLine.scan`
    * `CommandLine.parse`
-/

namespace TypedClient

namespace CommandLine

------------------------------------------------------------
-- Commands and options
------------------------------------------------------------

/- The commands. -/
inductive Command where
  | generate
  | clean
deriving DecidableEq, Repr

/- The word for a command. -/
def Command.text : Command → String
  | generate => "generate"
  | clean => "clean"

/- The options of all commands. -/
inductive Setting where
  | base
  | out
  | schemaPath
  | schemaFile
  | noSample
  | help
deriving DecidableEq, Repr

namespace Setting

/- The spellings of an option. -/
def spellings : Setting → List String
  | base => ["--base"]
  | out => ["-o", "--out"]
  | schemaPath => ["--schema-path"]
  | schemaFile => ["--schema-file"]
  | noSample => ["--no-sample"]
  | help => ["--help"]

/- Whether an option is followed by a value. -/
def takesValue : Setting → Bool
  | noSample => false
  | help => false
  | _ => true

/- The environment variable that stands in for an option. -/
def envName? : Setting → Option String
  | base => some "API_BASE_URL"
  | out => some "API_CLIENT_OUT"
  | _ => none

/- The value of an option that is not given anywhere. -/
def default? : Setting → Option String
  | base => some "http://localhost:6397"
  | out => some "lib"
  | schemaPath => some "/swagger-schema.json"
  | _ => none

end Setting

/- The options of a command. -/
def Command.settings : Command → List Setting
  | generate =>
      [.base, .out, .schemaPath, .schemaFile, .noSample, .help]
  | clean => [.out, .help]

------------------------------------------------------------
-- Mistakes
------------------------------------------------------------

/-
  Why a command line is refused.

    * `noWords`: nothing is given at all
    * `noCommand`: no command is given
    * `unknownCommand`: the command is none of the known ones
    * `unknownOption`: the option is none of those of the command
    * `missingValue`: nothing follows an option that takes a value
    * `unwantedValue`: a value is given to an option without one
    * `extraArguments`: something else follows the command
    * `fileMissing`: the file of an option does not exist
    * `fileIsDirectory`: the file of an option is a directory
    * `directoryIsFile`: the directory of an option is a file
-/
inductive Mistake where
  | noWords
  | noCommand
  | unknownCommand (word : String)
  | unknownOption (option : String) (similar : List String)
  | missingValue (option : String)
  | unwantedValue (option : String)
  | extraArguments (words : List String)
  | fileMissing (setting : Setting) (file : String)
  | fileIsDirectory (setting : Setting) (file : String)
  | directoryIsFile (setting : Setting) (directory : String)
deriving DecidableEq, Repr

namespace Mistake

/- A text between quotes. -/
def quote (s : String) : String :=
  String.ofList (Document.quoted (RawText.ofString s))

/- The spellings of an option between quotes. -/
def hint (s : Setting) : String :=
  " / ".intercalate (s.spellings.map fun o => "'" ++ o ++ "'")

/- What is wrong with the value of an option. -/
def badValue (s : Setting) (reason : String) : String :=
  "Invalid value for " ++ hint s ++ ": " ++ reason

/- The proposal of similar options. -/
def proposal : List String → String
  | [] => ""
  | [option] => " Did you mean " ++ option ++ "?"
  | options =>
      " (Possible options: " ++ ", ".intercalate options ++ ")"

/- The message for a user. -/
def message : Mistake → String
  | noWords => ""
  | noCommand => "Missing command."
  | unknownCommand word => "No such command " ++ quote word ++ "."
  | unknownOption option similar =>
      "No such option: " ++ option ++ proposal similar
  | missingValue option =>
      "Option " ++ quote option ++ " requires an argument."
  | unwantedValue option =>
      "Option " ++ quote option ++ " does not take a value."
  | extraArguments words =>
      "Got unexpected extra argument" ++
        (if words.length = 1 then " (" else "s (") ++
        " ".intercalate words ++ ")"
  | fileMissing s file =>
      badValue s ("File " ++ quote file ++ " does not exist.")
  | fileIsDirectory s file =>
      badValue s ("File " ++ quote file ++ " is a directory.")
  | directoryIsFile s directory =>
      badValue s
        ("Directory " ++ quote directory ++ " is a file.")

end Mistake

------------------------------------------------------------
-- Similar words
------------------------------------------------------------

/-
  The longest common block of two texts that starts at their
  starts.
-/
def commonStart : List Char → List Char → Nat
  | a :: as, b :: bs => if a = b then commonStart as bs + 1 else 0
  | _, _ => 0

/- All ends of a list with the number of items in front. -/
def ends {α : Type} (front : Nat) : List α → List (Nat × List α)
  | [] => []
  | a :: as => (front, a :: as) :: ends (front + 1) as

/-
  The first longest common block of two texts: its places and its
  length.
-/
def longestBlock (s t : List Char) : Nat × Nat × Nat :=
  (ends 0 s).foldl
    (fun best p =>
      (ends 0 t).foldl
        (fun best q =>
          let n := commonStart p.2 q.2
          if best.2.2 < n then (p.1, q.1, n) else best)
        best)
    (0, 0, 0)

/-
  The number of characters in common blocks: the longest one, and
  those in front of it and behind it.
-/
def matching (fuel : Nat) (s t : List Char) : Nat :=
  match fuel with
  | 0 => 0
  | fuel + 1 =>
      let (i, j, n) := longestBlock s t
      if n = 0 then 0
      else
        n + matching fuel (s.take i) (t.take j) +
          matching fuel (s.drop (i + n)) (t.drop (j + n))

/-
  Whether at least three in five characters of two texts are in
  common blocks.
-/
def isSimilar (s t : String) : Bool :=
  let n := matching s.length t.toList s.toList
  3 * (s.length + t.length) ≤ 10 * n

------------------------------------------------------------
-- Scanning
------------------------------------------------------------

/-
  The options that were given, with their values, and the other
  words, both in order.
-/
structure Scan where
  given : List (Setting × String)
  words : List String
deriving Repr

/- The options of a command that have a spelling. -/
def named? (settings : List Setting) (s : String) : Option Setting :=
  settings.find? fun o => s ∈ o.spellings

/- The options whose long spelling is similar to a text. -/
def similarTo (settings : List Setting) (s : String) : List String :=
  let long := (settings.flatMap Setting.spellings).filter
    (·.startsWith "--")
  (long.filter (isSimilar s)).take 3 |>.mergeSort
    fun a b => a ≤ b

/- A text before and behind its first equals sign. -/
def splitValue (s : String) : String × Option String :=
  let front := s.toList.takeWhile (· ≠ '=')
  match s.toList.drop front.length with
  | [] => (s, none)
  | _ :: value => (String.ofList front, some (String.ofList value))

/- Add an option and go on. -/
def Scan.give
    (scan : Scan)
    (setting : Setting)
    (value : String) : Scan :=
  { scan with given := (setting, value) :: scan.given }

/-
  The options of one hyphen and several letters, from a letter
  on.  A letter that takes a value takes the rest, or else the
  next word, which is asked for by `none`.
-/
def scanLetters
    (settings : List Setting)
    (scan : Scan) :
    List Char → Except Mistake (Scan × Option Setting)
  | [] => .ok (scan, none)
  | c :: cs =>
      let option := String.ofList ['-', c]
      match named? settings option with
      | none => .error (.unknownOption option [])
      | some s =>
          if !s.takesValue then
            scanLetters settings (scan.give s "") cs
          else if cs.isEmpty then .ok (scan, some s)
          else .ok (scan.give s (String.ofList cs), none)

/-
  Scan words.  `waiting` is an option, in the spelling that was
  used, that takes the next word as its value.
-/
def scanFrom
    (settings : List Setting)
    (scan : Scan)
    (waiting : Option (Setting × String)) :
    List String → Except Mistake Scan
  | [] =>
      match waiting with
      | some (_, spelling) => .error (.missingValue spelling)
      | none =>
          .ok ⟨scan.given.reverse, scan.words.reverse⟩
  | w :: ws =>
      match waiting with
      | some (s, _) => scanFrom settings (scan.give s w) none ws
      | none =>
          if w = "--" then
            .ok ⟨scan.given.reverse, scan.words.reverse ++ ws⟩
          else if w.startsWith "--" then
            let (name, value) := splitValue w
            match named? settings name, value with
            | none, _ =>
                .error (.unknownOption name
                  (similarTo settings name))
            | some s, none =>
                if s.takesValue then
                  scanFrom settings scan (some (s, name)) ws
                else scanFrom settings (scan.give s "") none ws
            | some s, some v =>
                if s.takesValue then
                  scanFrom settings (scan.give s v) none ws
                else .error (.unwantedValue name)
          else if w.startsWith "-" && w ≠ "-" then
            match scanLetters settings scan w.toList.tail with
            | .error e => .error e
            | .ok (scan, none) => scanFrom settings scan none ws
            | .ok (scan, some s) =>
                scanFrom settings scan
                  (some (s, String.ofList
                    ['-', w.toList.getLastD '-'])) ws
          else
            scanFrom settings
              { scan with words := w :: scan.words } none ws

/- Scan the words behind a command. -/
def scan
    (command : Command)
    (words : List String) : Except Mistake Scan :=
  scanFrom command.settings ⟨[], []⟩ none words

------------------------------------------------------------
-- Values
------------------------------------------------------------

/- The value that was given last for an option. -/
def Scan.value? (scan : Scan) (s : Setting) : Option String :=
  (scan.given.reverse.find? fun g => g.1 = s).map (·.2)

/- The value of an option from wherever it comes. -/
def valueOf?
    (scan : Scan)
    (env : List (String × String))
    (s : Setting) : Option String :=
  match scan.value? s with
  | some v => some v
  | none =>
      let fromEnv :=
        (s.envName?.bind fun v => env.lookup v).filter fun v => !v.isEmpty
      fromEnv.or s.default?

/- What is wrong with the value of an option, if anything is. -/
def mistakeOf?
    (tree : FileTree)
    (s : Setting)
    (value : String) : Option Mistake :=
  let p := FileTree.Path.ofText value
  match s with
  | .out =>
      if !value.isEmpty && tree.isFile p then
        some (.directoryIsFile s value)
      else none
  | .schemaFile =>
      if value.isEmpty || !tree.contains p then
        some (.fileMissing s value)
      else if tree.isDirectory p then
        some (.fileIsDirectory s value)
      else none
  | _ => none

/-
  The options of a command in the order in which they are looked
  at: those that were given first.
-/
def processingOrder (command : Command) (scan : Scan) : List Setting :=
  ((scan.given.map (·.1)) ++ command.settings).eraseDups

/- The first mistake in the values of options. -/
def firstMistake?
    (tree : FileTree)
    (env : List (String × String))
    (command : Command)
    (scan : Scan) : Option Mistake :=
  (processingOrder command scan).findSome? fun s =>
    (valueOf? scan env s).bind (mistakeOf? tree s)

------------------------------------------------------------
-- Command lines
------------------------------------------------------------

/- The commands with their options in place. -/
inductive Invocation where
  | generate
      (base : String)
      (out : FileTree.Path)
      (schemaPath : String)
      (schemaFile : Option FileTree.Path)
      (noSample : Bool)
  | clean (out : FileTree.Path)
  | help (command : Option Command)
deriving Repr

/- The invocation of a command whose options are in order. -/
def invocation
    (env : List (String × String))
    (command : Command)
    (scan : Scan) : Invocation :=
  let text (s : Setting) := (valueOf? scan env s).getD ""
  let out := FileTree.Path.ofText (text .out)
  match command with
  | .clean => .clean out
  | .generate =>
      .generate (text .base) out (text .schemaPath)
        ((valueOf? scan env .schemaFile).map
          FileTree.Path.ofText)
        (scan.value? .noSample).isSome

/- Read the words behind a command. -/
def parseCommand
    (tree : FileTree)
    (env : List (String × String))
    (command : Command)
    (words : List String) : Except Mistake Invocation := do
  let found ← scan command words
  if (found.value? .help).isSome then
    return .help (some command)
  match firstMistake? tree env command found with
  | some m => throw m
  | none =>
      if found.words.isEmpty then
        return invocation env command found
      else throw (.extraArguments found.words)

/- A command line that is refused, and the command it is about. -/
structure UsageError where
  command : Option Command
  mistake : Mistake
deriving Repr

/- The command of a word. -/
def command? (word : String) : Option Command :=
  [Command.generate, .clean].find? fun c => c.text = word

/- Read a command line in a tree and an environment. -/
def parse
    (tree : FileTree)
    (env : List (String × String)) :
    List String → Except UsageError Invocation
  | [] => .error ⟨none, .noWords⟩
  | "--" :: ws =>
      match ws with
      | [] => .error ⟨none, .noCommand⟩
      | w :: ws =>
          match command? w with
          | none => .error ⟨none, .unknownCommand w⟩
          | some c =>
              (parseCommand tree env c ws).mapError
                (⟨some c, ·⟩)
  | w :: ws =>
      if w = "--help" then .ok (.help none)
      else if w.startsWith "--" then
        let (name, value) := splitValue w
        if name = "--help" && value.isSome then
          .error ⟨none, .unwantedValue name⟩
        else
          .error ⟨none, .unknownOption name
            (similarTo [.help] name)⟩
      else if w.startsWith "-" && w ≠ "-" then
        .error ⟨none, .unknownOption
          (String.ofList (w.toList.take 2)) []⟩
      else
        match command? w with
        | none => .error ⟨none, .unknownCommand w⟩
        | some c =>
            (parseCommand tree env c ws).mapError (⟨some c, ·⟩)

/- The page of help about a command or the program. -/
def helpPage : Option Command → List String
  | none => overviewPage
  | some .generate => generatePage
  | some .clean => cleanPage

/-
  The lines about a refused command line: the program is
  described if nothing was given.
-/
def UsageError.lines (e : UsageError) : List String :=
  if e.mistake = .noWords then overviewPage
  else
    let name :=
      match e.command with
      | none => "main"
      | some c => "main " ++ c.text
    (helpPage e.command).take 1 ++
      ["Try '" ++ name ++ " --help' for help.",
        "",
        "Error: " ++ e.mistake.message]

end CommandLine

end TypedClient
