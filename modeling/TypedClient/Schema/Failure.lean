import TypedClient.Document.Fault
import TypedClient.Document.Label

/-
  This file lists why no schema could be obtained, and the
  messages for those reasons that a user may see.

  Key definitions include:
    * `Schema.Error`
    * `Schema.Error.message`
    * `Schema.Failure`
-/

namespace TypedClient

------------------------------------------------------------
-- Causes
------------------------------------------------------------

/-
  Why a schema is refused or out of reach.

    * `unreachable`: the request for it failed
    * `refused`: it was answered with another status than 200
    * `missing`: there is no file of that name
    * `directory`: the name belongs to a directory
    * `unread`: reading the file failed
    * `malformed`: the text is no document
    * `noPaths`: the document has no mapping of paths
-/
inductive Schema.Error where
  | unreachable (url reason : String)
  | refused (url : String) (status : Int)
  | missing (file : String)
  | directory (file : String)
  | unread (file reason : String)
  | malformed
  | noPaths
deriving DecidableEq, Repr

/-
  Every way in which no schema is obtained.

    * `schema`: the schema is refused or out of reach
    * `document`: the document holds a value that cannot be built
      or written
    * `undecodable`: a file is not encoded as it has to be
-/
inductive Schema.Failure where
  | schema (e : Schema.Error)
  | document (e : Document.Fault)
  | undecodable
deriving DecidableEq, Repr

------------------------------------------------------------
-- Messages
------------------------------------------------------------

namespace Schema.Error

/- What stands in a message for a reason that is not told. -/
def untold : String :=
  "<detail>"

/- The message of a file that is not read, for some reason. -/
def notRead (file reason : String) : String :=
  "failed to read schema " ++ file ++ ": " ++ reason

/- A reason, and the file that it concerns. -/
def concerning (reason file : String) : String :=
  reason ++ ": " ++ String.ofList (Document.quoted file)

/- The message for a user. -/
def message : Schema.Error → String
  | unreachable url reason =>
      "failed to fetch schema from " ++ url ++ ": " ++ reason
  | refused url status =>
      "failed to fetch schema from " ++ url ++ ": HTTP " ++
        toString status
  | missing file =>
      notRead file
        (concerning "[Errno 2] No such file or directory" file)
  | directory file =>
      notRead file
        (concerning "[Errno 21] Is a directory" file)
  | unread file reason => notRead file reason
  | malformed => "failed to parse schema: " ++ untold
  | noPaths =>
      "failed to parse schema: document has no 'paths' mapping"

end Schema.Error

end TypedClient
