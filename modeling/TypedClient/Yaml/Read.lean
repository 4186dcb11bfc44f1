import TypedClient.Yaml.Merge
import TypedClient.Yaml.Value

/-
  This file turns graphs of YAML nodes into documents.  Scalars
  are read as their types say.  Collections are opened level by
  level from the root, so that of two faults the one nearer to
  the root is found.

  Key definitions include:
    * `Yaml.scalarValue`
    * `Yaml.Progress`
    * `Yaml.Graph.toDocument`
    * `Yaml.read`
-/

namespace TypedClient

namespace Yaml

------------------------------------------------------------
-- Scalars
------------------------------------------------------------

/- The value of a scalar of a type. -/
def scalarValue
    (tag : Tag)
    (text : RawText) : Except Document.Fault Document :=
  let asChars
      (fault : Document.Fault)
      (read : List Char → Value.Reading) : Value.Reading :=
    match RawText.toChars? text with
    | some cs => read cs
    | none => .error fault
  match tag with
  | .null => .ok .null
  | .bool => asChars .unknownWord Value.bool
  | .int => asChars .badValue Value.int
  | .float => asChars .badValue Value.float
  | .binary => asChars .malformed Value.binary
  | .timestamp => asChars .badTimestamp Value.timestamp
  | .str => .ok (.text text)
  | _ => .error .malformed

/- Whether a type is one of scalars. -/
def isScalarTag (t : Tag) : Bool :=
  t ∈ [Tag.null, .bool, .int, .float, .binary, .timestamp, .str]

/- Whether a type is one of collections. -/
def isCollectionTag (t : Tag) : Bool :=
  t ∈ [Tag.seq, .omap, .pairs, .set, .map]

/-
  The text of a scalar, or of the entry with an equals sign for
  a key, where `level` levels are left.
-/
def Nodes.textAt
    (nodes : Nodes)
    (level : Nat)
    (place : Place) : Except Document.Fault RawText :=
  match level with
  | 0 => .error .tooDeep
  | level + 1 =>
      match nodes[place]? with
      | some (.scalar _ text) => .ok text
      | some (.mapping _ entries) =>
          match entries.find? fun e =>
              nodes.tagAt e.1 = .value with
          | some e => textAt nodes level e.2
          | none => .error .malformed
      | _ => .error .malformed

/- The value of the node on a place, which has a scalar type. -/
def Nodes.leafAt
    (nodes : Nodes)
    (place : Place) : Except Document.Fault Document := do
  let tag := nodes.tagAt place
  let text ← nodes.textAt Document.maxDepth place
  if nodes.isMapping place && tag = .timestamp then
    throw .nestedTimestamp
  else scalarValue tag text

------------------------------------------------------------
-- Progress
------------------------------------------------------------

/- What is known of a node. -/
inductive Standing where
  | unread
  | leaf (d : Document)
  | opened
deriving Inhabited

/-
  The nodes, what is known of each, the collections whose parts
  have not been looked at, the last one first, and the steps that
  taking out merge keys may need.
-/
structure Progress where
  nodes : Nodes
  standings : Array Standing
  waiting : List Place
  mergeSteps : Nat

namespace Progress

/- The progress before anything is read. -/
def start (nodes : Nodes) : Progress :=
  ⟨nodes, Array.replicate nodes.size .unread, [],
    nodes.mergeSteps⟩

/- Note what is known of a node. -/
def note
    (p : Progress)
    (place : Place)
    (s : Standing) : Progress :=
  { p with standings := p.standings.setIfInBounds place s }

/- The value of a node, if it has a scalar type and was read. -/
def leaf? (p : Progress) (place : Place) : Option Document :=
  match p.standings[place]? with
  | some (.leaf d) => some d
  | _ => none

/- Read a node for the first time. -/
def firstTouch
    (p : Progress)
    (place : Place) : Except Document.Fault Progress := do
  let tag := p.nodes.tagAt place
  if isScalarTag tag then
    return p.note place (.leaf (← p.nodes.leafAt place))
  else if isCollectionTag tag then
    return { p.note place .opened with
      waiting := place :: p.waiting }
  else throw .malformed

/- Read a node, if it has not been read. -/
def touch
    (p : Progress)
    (place : Place) : Except Document.Fault Progress :=
  match p.standings[place]? with
  | some .unread => p.firstTouch place
  | _ => .ok p

/- Read a key, which has to be a scalar, and its value. -/
def touchEntry
    (p : Progress)
    (e : Entry) : Except Document.Fault Progress := do
  let p ← p.touch e.1
  if (p.leaf? e.1).isNone then throw .malformed
  p.touch e.2

/- Read a mapping with one entry as a pair. -/
def touchPair
    (p : Progress)
    (place : Place) : Except Document.Fault Progress :=
  match p.nodes[place]? with
  | some (.mapping _ [e]) => do
      let p ← p.touch e.1
      p.touch e.2
  | _ => .error .malformed

/- Read the parts of a collection. -/
def touchParts
    (p : Progress)
    (place : Place) : Except Document.Fault Progress :=
  match p.nodes[place]? with
  | some (.sequence .seq items) => items.foldlM touch p
  | some (.sequence .omap items) => items.foldlM touchPair p
  | some (.sequence .pairs items) => items.foldlM touchPair p
  | some (.mapping tag _) =>
      if tag = .map ∨ tag = .set then do
        let nodes ← p.nodes.flatten p.mergeSteps
          Document.maxDepth place
        (nodes.entriesAt place).foldlM touchEntry
          { p with nodes := nodes }
      else .error .malformed
  | _ => .error .malformed

/- Read the collections that wait, level by level. -/
def finish
    (fuel : Nat)
    (p : Progress) : Except Document.Fault Progress :=
  match fuel with
  | 0 => .ok p
  | fuel + 1 =>
      match p.waiting with
      | [] => .ok p
      | level => do
          finish fuel
            (← level.reverse.foldlM touchParts
              { p with waiting := [] })

------------------------------------------------------------
-- Documents
------------------------------------------------------------

/- The only entry of the mapping on a place. -/
def pairAt? (p : Progress) (place : Place) : Option Entry :=
  match p.nodes[place]? with
  | some (.mapping _ [e]) => some e
  | _ => none

/- The parts of a node. -/
def partsOf (p : Progress) : Node → List Place
  | .scalar _ _ => []
  | .sequence .seq items => items
  | .sequence _ items =>
      (items.filterMap p.pairAt?).flatMap fun e => [e.1, e.2]
  | .mapping _ entries =>
      entries.flatMap fun e => [e.1, e.2]

/- The document of a collection, given those of its parts. -/
def assemble
    (p : Progress)
    (part : Place → Document)
    (n : Node) : Document :=
  let entry (e : Entry) := (part e.1, part e.2)
  match n with
  | .scalar _ _ => .null
  | .sequence .seq items => .list (items.map part)
  | .sequence _ items =>
      .pairs ((items.filterMap p.pairAt?).map entry)
  | .mapping .set entries =>
      .set ((Document.ofEntries (entries.map entry)).map (·.1))
  | .mapping _ entries =>
      .mapping (Document.ofEntries (entries.map entry))

/- Documents by the places of their nodes. -/
abbrev Documents :=
  Array (Option Document)

/- The document on a place. -/
def get? (docs : Documents) (place : Place) : Option Document :=
  (docs[place]?).join

/-
  Add the document of a node to those of other nodes, if it
  needs no others.
-/
def settle
    (p : Progress)
    (docs : Documents)
    (place : Place) : Documents :=
  match p.leaf? place, p.nodes[place]? with
  | some d, _ => docs.setIfInBounds place (some d)
  | none, some n =>
      if (p.partsOf n).all fun i => (get? docs i).isSome then
        docs.setIfInBounds place
          (some (p.assemble (fun i => (get? docs i).getD .null) n))
      else docs
  | none, none => docs

/-
  The document of a node.  The nodes without one in `docs` are
  those with a part of which they are a part; each is given up at
  its second occurrence on `path`.
-/
def unfold
    (p : Progress)
    (docs : Documents)
    (fuel free : Nat)
    (path : List Place)
    (place : Place) : Document :=
  match fuel with
  | 0 => .null
  | fuel + 1 =>
      match get? docs place, p.nodes[place]? with
      | some d, _ => d
      | none, none => .null
      | none, some n =>
          if place ∈ path then
            .knot place (p.assemble (fun _ => .null) n)
          else
            let path := if free = 0 then place :: path else path
            .knot place
              (p.assemble (unfold p docs fuel (free - 1) path) n)

end Progress

/-
  The levels of a document that are looked at one by one: so far
  from the root, nothing is given up.
-/
def freeLevels : Nat :=
  8

/- The document of a graph. -/
def Graph.toDocument
    (g : Graph) : Except Document.Fault Document := do
  let p ← (Progress.start g.nodes).touch g.root
  let p ← p.finish (g.nodes.size + 1)
  let docs := g.order.foldl p.settle
    (Array.replicate g.nodes.size none)
  return p.unfold docs (g.nodes.size + freeLevels + 2) freeLevels
    [] g.root

------------------------------------------------------------
-- Streams
------------------------------------------------------------

/- The document of a stream, null if it holds none. -/
def read (text : List Char) : Except Document.Fault Document := do
  let (tokens, fault) := Token.scan text
  match ← Graph.ofTokens tokens fault with
  | none => return .null
  | some g => g.toDocument

end Yaml

end TypedClient
