import TypedClient.Document.Fault
import TypedClient.Yaml.Graph

/-
  This file takes merge keys out of mappings.  A merge key
  brings in the entries of a mapping, or of several, in front of
  the entries that are there; an entry that is there wins since
  it comes later.  A mapping that is brought in may have merge
  keys itself, down to a limited depth.

  Key definitions include:
    * `Yaml.Nodes.entriesAt`
    * `Yaml.Nodes.flatten`
-/

namespace TypedClient

namespace Yaml

/- A table of nodes. -/
abbrev Nodes :=
  Array Node

/- An entry of a mapping: the places of its key and its value. -/
abbrev Entry :=
  Place × Place

namespace Nodes

------------------------------------------------------------
-- Entries
------------------------------------------------------------

/- The type of the node on a place. -/
def tagAt (nodes : Nodes) (place : Place) : Tag :=
  match nodes[place]? with
  | some n => n.tag
  | none => .unknown

/- The entries of the mapping on a place. -/
def entriesAt (nodes : Nodes) (place : Place) : List Entry :=
  match nodes[place]? with
  | some (.mapping _ entries) => entries
  | _ => []

/- A table with other entries in the mapping on a place. -/
def withEntries
    (nodes : Nodes)
    (place : Place)
    (entries : List Entry) : Nodes :=
  match nodes[place]? with
  | some (.mapping tag _) =>
      nodes.setIfInBounds place (.mapping tag entries)
  | _ => nodes

/- Whether the node on a place is a mapping. -/
def isMapping (nodes : Nodes) (place : Place) : Bool :=
  match nodes[place]? with
  | some (.mapping _ _) => true
  | _ => false

/- A table in which an equals sign for a key is a text. -/
def plainKey (nodes : Nodes) (e : Entry) : Nodes :=
  match nodes[e.1]? with
  | some (.scalar .value text) =>
      nodes.setIfInBounds e.1 (.scalar .str text)
  | _ => nodes

/-
  The value of the first merge key among entries, and the other
  entries.
-/
def splitMerge?
    (nodes : Nodes) :
    List Entry → Option (Place × List Entry)
  | [] => none
  | e :: es =>
      if nodes.tagAt e.1 = .merge then some (e.2, es)
      else
        (splitMerge? nodes es).map fun found =>
          (found.1, e :: found.2)

------------------------------------------------------------
-- Merge keys
------------------------------------------------------------

mutual

/-
  Take the merge keys out of a mapping, where `level` levels are
  left.
-/
def flatten
    (nodes : Nodes)
    (fuel level : Nat)
    (place : Place) : Except Document.Fault Nodes :=
  match fuel with
  | 0 => .error .malformed
  | fuel + 1 => do
      let level ← Document.descend level
      let (nodes, taken) ← nodes.takeMerges fuel level place []
      let own := nodes.entriesAt place
      return (own.foldl plainKey nodes).withEntries place
        (taken ++ own)

/-
  Drop the merge keys of a mapping, and collect the entries that
  they bring in behind those taken so far.
-/
def takeMerges
    (nodes : Nodes)
    (fuel level : Nat)
    (place : Place)
    (taken : List Entry) :
    Except Document.Fault (Nodes × List Entry) :=
  match fuel with
  | 0 => .error .malformed
  | fuel + 1 => do
      match splitMerge? nodes (nodes.entriesAt place) with
      | none => return (nodes, taken)
      | some (value, others) =>
          let nodes := nodes.withEntries place others
          let (nodes, more) ←
            match nodes[value]? with
            | some (.sequence _ items) =>
                nodes.takeItems fuel level items
            | _ => nodes.takeItems fuel level [value]
          nodes.takeMerges fuel level place (taken ++ more)

/- The entries of several mappings, those of the last first. -/
def takeItems
    (nodes : Nodes)
    (fuel level : Nat)
    (items : List Place) :
    Except Document.Fault (Nodes × List Entry) :=
  match fuel with
  | 0 => .error .malformed
  | fuel + 1 => do
      match items with
      | [] => return (nodes, [])
      | item :: items =>
          if !nodes.isMapping item then throw .malformed
          let nodes ← nodes.flatten fuel level item
          let first := nodes.entriesAt item
          let (nodes, others) ← nodes.takeItems fuel level items
          return (nodes, others ++ first)

end

/- The number of parts that a node has. -/
def partCount : Node → Nat
  | .scalar _ _ => 0
  | .sequence _ items => items.length
  | .mapping _ entries => entries.length

/-
  Steps enough for taking out merge keys: each one is dropped
  once, and its value has no more items than there are parts.
-/
def mergeSteps (nodes : Nodes) : Nat :=
  let parts := nodes.foldl (fun n node => n + partCount node) 4
  parts * parts

end Nodes

end Yaml

end TypedClient
