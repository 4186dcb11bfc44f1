import TypedClient.Number.Fixed
import TypedClient.Sample.Basic

/-
  This file writes the progress of a sampling run: a header, one
  line a sample, and a summary.

  Key definitions include:
    * `Report.bytesText`
    * `Report.millisText`
    * `Report.header`
    * `Report.line?`
    * `Report.summary`
-/

namespace TypedClient

namespace Report

------------------------------------------------------------
-- Quantities
------------------------------------------------------------

/- A size in its largest full unit, with one decimal place. -/
def bytesText (size : Int) : String :=
  let inUnits (unit : Nat) :=
    (Double.ofRatio false size.toNat unit).fixed 1
  if 1024 * 1024 ≤ size then inUnits (1024 * 1024) ++ " MB"
  else if 1024 ≤ size then inUnits 1024 ++ " KB"
  else toString size ++ " B"

/- A duration in seconds, written in whole milliseconds. -/
def millisText (seconds : Double) : String :=
  (seconds.mul (Double.ofInt 1000)).fixed 0 ++ "ms"

------------------------------------------------------------
-- Columns
------------------------------------------------------------

/- The width of the column of paths. -/
def pathWidth : Nat :=
  55

/- The width of the column of statuses. -/
def statusWidth : Nat :=
  6

/- The width of the column of sizes. -/
def sizeWidth : Nat :=
  10

/- The width of the column of durations. -/
def timeWidth : Nat :=
  8

/- As many copies of a character as a width leaves open. -/
def filler (width : Nat) (c : Char) (length : Nat) : String :=
  String.ofList (List.replicate (width - length) c)

/- A path at the left of its column. -/
def pathColumn (path : RawText) : RawText :=
  path ++ RawText.ofString (filler pathWidth ' ' path.length)

/- A text at the right of its column. -/
def atRight (width : Nat) (s : String) : String :=
  filler width ' ' s.length ++ s

/- A line under a column. -/
def rule (width : Nat) : String :=
  filler width '─' 0

/- The lines above the samples. -/
def header : List String :=
  let title := "ENDPOINT"
  ["",
    title ++ filler pathWidth ' ' title.length ++ " " ++
      atRight statusWidth "STATUS" ++ " " ++
      atRight sizeWidth "SIZE" ++ "  TIME",
    rule pathWidth ++ " " ++ rule statusWidth ++ " " ++
      rule sizeWidth ++ "  " ++ rule timeWidth]

------------------------------------------------------------
-- Samples
------------------------------------------------------------

/- The columns of a sample behind its path. -/
def columns (s : Sample) : String :=
  let status := (s.status.map toString).getD "ERR"
  let size :=
    if s.outcome = .transportError then "-"
    else bytesText s.size
  " " ++ atRight statusWidth status ++ " " ++
    atRight sizeWidth size ++ "  " ++
    atRight timeWidth (millisText s.elapsed)

/-
  What became of a sample.  A sample that claims a shape and has
  none tells nothing.
-/
def ending? (s : Sample) : Option String :=
  match s.outcome with
  | .ok => s.shape.map fun shape => "  -> " ++ shape.render
  | .transportError => some ("  SKIP (error: " ++ s.error ++ ")")
  | .badStatus => some "  SKIP"
  | outcome => some ("  SKIP (" ++ outcome.text ++ ")")

/- The line of a sample, if there is something to tell. -/
def line? (s : Sample) : Option RawText :=
  (ending? s).map fun ending =>
    pathColumn s.endpoint.path ++
      RawText.ofString (columns s ++ ending)

/- The summary of samples. -/
def summary (samples : List Sample) : String :=
  let called := samples.length
  let inferred := (samples.filter Sample.isOk).length
  let bytes := samples.foldl (fun n s => n + s.size) 0
  let time := samples.foldl (fun t s => t.add s.elapsed)
    (Double.zero false)
  "GET summary: " ++ toString called ++ " called, " ++
    toString inferred ++ " inferred, " ++
    toString (called - inferred) ++ " skipped | " ++
    bytesText bytes ++ " total data | " ++
    millisText time ++ " total time"

end Report

end TypedClient
