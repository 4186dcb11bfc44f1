import TypedClient.Package.FileTree
import TypedClient.Sample.Basic
import TypedClient.Schema.Parse
import TypedClient.Text.Lines

/-
  This file obtains schemas: from the reply of a server, or from
  a file.

  Key definitions include:
    * `Schema.ofReply`
    * `Schema.ofFile`
-/

namespace TypedClient

namespace Schema

/- The schema that a server replies with. -/
def ofReply (url : String) (reply : Reply) : Except Failure Schema :=
  match reply with
  | .failed reason _ => .error (.schema (.unreachable url reason))
  | .response r =>
      if r.status ≠ 200 then
        .error (.schema (.refused url r.status))
      else parse (Text.utf8Lossy r.body)

/- Why reading a file fails, though it is there. -/
abbrev ReadFaults :=
  FileTree.Path → Option String

/- The schema in a file of a tree, unless reading it fails. -/
def ofFile
    (faults : ReadFaults)
    (tree : FileTree)
    (p : FileTree.Path) : Except Failure Schema :=
  match tree.file? p with
  | some bytes =>
      match faults p, Text.utf8Strict? bytes with
      | some reason, _ => .error (.schema (.unread p.text reason))
      | none, some text => parse (Text.plainBreaks text)
      | none, none => .error .undecodable
  | none =>
      if tree.isDirectory p then
        .error (.schema (.directory p.text))
      else .error (.schema (.missing p.text))

end Schema

end TypedClient
