import TypedClient.Yaml.Tag
import TypedClient.Yaml.Token.Scan

/-
  This file builds the graph of nodes that a token stream
  describes.  Nodes stand in a table, and the parts of a
  collection are named by their places in it, so that an alias
  is one more name for a node, even inside that node itself.

  Key definitions include:
    * `Yaml.Node`
    * `Yaml.Graph`
    * `Yaml.Graph.ofTokens`
-/

namespace TypedClient

namespace Yaml

------------------------------------------------------------
-- Nodes
------------------------------------------------------------

/- The place of a node in a table. -/
abbrev Place :=
  Nat

/- A typed node of a document. -/
inductive Node where
  | scalar (tag : Tag) (text : RawText)
  | sequence (tag : Tag) (items : List Place)
  | mapping (tag : Tag) (entries : List (Place × Place))
deriving Inhabited

/- The type of a node. -/
def Node.tag : Node → Tag
  | scalar t _ => t
  | sequence t _ => t
  | mapping t _ => t

/-
  A table of nodes, the order in which they were completed, and
  the root among them.
-/
structure Graph where
  nodes : Array Node
  order : List Place
  root : Place

namespace Graph

------------------------------------------------------------
-- Streams of tokens
------------------------------------------------------------

/-
  The tokens that are left, the anchors so far, the meaning of
  the tag handles, the nodes so far and those that are complete,
  the last one first.
-/
structure Stream where
  tokens : List Token
  anchors : List (List Char × Place)
  handles : List (List Char × List Char)
  nodes : Array Node
  complete : List Place

/- What was built and the stream behind it. -/
abbrev Building (α : Type) :=
  StateT Stream (Except Document.Fault) α

/- The deepest nesting that is built: two levels each. -/
def maxDepth : Nat :=
  Document.maxDepth / 2

/- The next token. -/
def peek : Building (Option Token) := do
  return (← get).tokens.head?

/- Drop the next token. -/
def skip : Building Unit :=
  modify fun s => { s with tokens := s.tokens.tail }

/- Whether the next token is one of the given ones. -/
def nextIn (ts : List Token) : Building Bool := do
  match ← peek with
  | some t => return t ∈ ts
  | none => return false

/- Drop a token that has to come next. -/
def expect (t : Token) : Building Unit := do
  if ← nextIn [t] then skip else throw .malformed

------------------------------------------------------------
-- Properties
------------------------------------------------------------

/- The anchor and the tag in front of a node. -/
structure Properties where
  anchor : Option (List Char)
  tag : Option (List Char)

/- The anchor that comes next, if one does. -/
def takeAnchor : Building (Option (List Char)) := do
  match ← peek with
  | some (.anchor name) => do skip; return some name
  | _ => return none

/- The tag that comes next, in full, if one does. -/
def takeTag : Building (Option (List Char)) := do
  match ← peek with
  | some (.tag handle suffix) => do
      skip
      match handle with
      | none => return some suffix
      | some h =>
          match (← get).handles.lookup h with
          | some start => return some (start ++ suffix)
          | none => throw .malformed
  | _ => return none

/- The properties that come next, in either order. -/
def takeProperties : Building Properties := do
  match ← takeAnchor with
  | some name => return ⟨some name, ← takeTag⟩
  | none =>
      let tag ← takeTag
      match tag with
      | none => return ⟨none, none⟩
      | some _ => return ⟨← takeAnchor, tag⟩

/- The tag that asks for the type that a plain node would have. -/
def plainTag : List Char :=
  ['!']

/- The type of a collection. -/
def collectionTag
    (plain : Tag)
    (tag : Option (List Char)) : Tag :=
  match tag with
  | none => plain
  | some uri => if uri = plainTag then plain else Tag.ofUri uri

/- The type of a scalar. -/
def scalarTag
    (isPlain : Bool)
    (text : RawText)
    (tag : Option (List Char)) : Tag :=
  match tag with
  | none => if isPlain then Tag.ofPlain text else .str
  | some uri =>
      if uri = plainTag then Tag.ofPlain text else Tag.ofUri uri

/- Let an anchor name a node. -/
def define
    (anchor : Option (List Char))
    (place : Place) : Building Unit :=
  match anchor with
  | none => pure ()
  | some name =>
      modify fun s =>
        { s with anchors := (name, place) :: s.anchors }

/- Refuse an anchor that is taken. -/
def checkAnchor (anchor : Option (List Char)) : Building Unit := do
  match anchor with
  | none => pure ()
  | some name =>
      if ((← get).anchors.lookup name).isSome then
        throw .malformed

/- The node that an alias stands for. -/
def resolve (name : List Char) : Building Place := do
  match (← get).anchors.lookup name with
  | some place => return place
  | none => throw .malformed

------------------------------------------------------------
-- Places
------------------------------------------------------------

/- Put a node on a new place. -/
def allot (n : Node) : Building Place := do
  let place := (← get).nodes.size
  modify fun s => { s with nodes := s.nodes.push n }
  return place

/- Put a complete node on a place. -/
def settle (place : Place) (n : Node) : Building Unit :=
  modify fun s =>
    { s with
      nodes := s.nodes.setIfInBounds place n
      complete := place :: s.complete }

/- Put a complete node on a new place. -/
def add (n : Node) : Building Place := do
  let place ← allot n
  settle place n
  return place

/- The node that stands where nothing is written. -/
def absent : Building Place :=
  add (.scalar .null [])

------------------------------------------------------------
-- Content
------------------------------------------------------------

/- The kinds of collections. -/
inductive Form where
  | blockSequence
  | plainSequence
  | blockMapping
  | flowSequence
  | flowMapping
deriving DecidableEq, Repr

/-
  The collection that the next token opens.  In a block all five
  may stand, and a sequence without indentation only below a
  key; its first hyphen is not dropped.
-/
def takeForm (inBlock belowKey : Bool) : Building (Option Form) := do
  match ← peek with
  | some .blockEntry =>
      return if belowKey then some .plainSequence else none
  | some .flowSequenceStart => do skip; return some .flowSequence
  | some .flowMappingStart => do skip; return some .flowMapping
  | some .blockSequenceStart =>
      if inBlock then do skip; return some .blockSequence
      else return none
  | some .blockMappingStart =>
      if inBlock then do skip; return some .blockMapping
      else return none
  | _ => return none

/- The scalar that comes next, behind its properties. -/
def scalarFrom (p : Properties) : Building Node := do
  match ← peek with
  | some (.scalar isPlain text) => do
      skip
      return .scalar (scalarTag isPlain text p.tag) text
  | _ =>
      if p.anchor.isSome || p.tag.isSome then
        return .scalar (scalarTag true [] p.tag) []
      else throw .malformed

mutual

/- The node that comes next. -/
def nodeFrom
    (fuel depth : Nat)
    (inBlock belowKey : Bool) : Building Place :=
  match fuel with
  | 0 => throw .malformed
  | fuel + 1 =>
      match depth with
      | 0 => throw .tooDeep
      | depth + 1 => do
          match ← peek with
          | some (.alias name) => do skip; resolve name
          | _ =>
              let p ← takeProperties
              checkAnchor p.anchor
              match ← takeForm inBlock belowKey with
              | some form =>
                  let place ← allot default
                  define p.anchor place
                  let n ← collectionFrom fuel depth form p.tag
                  settle place n
                  return place
              | none =>
                  let place ← add (← scalarFrom p)
                  define p.anchor place
                  return place

/- The collection that was opened. -/
def collectionFrom
    (fuel depth : Nat)
    (form : Form)
    (tag : Option (List Char)) : Building Node :=
  match fuel with
  | 0 => throw .malformed
  | fuel + 1 => do
      match form with
      | .blockSequence =>
          let items ← blockItems fuel depth []
          return .sequence (collectionTag .seq tag) items
      | .plainSequence =>
          let items ← plainItems fuel depth []
          return .sequence (collectionTag .seq tag) items
      | .flowSequence =>
          let items ← flowItems fuel depth true []
          return .sequence (collectionTag .seq tag) items
      | .blockMapping =>
          let entries ← blockEntries fuel depth []
          return .mapping (collectionTag .map tag) entries
      | .flowMapping =>
          let entries ← flowEntries fuel depth true []
          return .mapping (collectionTag .map tag) entries

/- A node, or nothing in front of one of the given tokens. -/
def nodeOrAbsent
    (fuel depth : Nat)
    (inBlock belowKey : Bool)
    (stops : List Token) : Building Place :=
  match fuel with
  | 0 => throw .malformed
  | fuel + 1 => do
      if ← nextIn stops then absent
      else nodeFrom fuel depth inBlock belowKey

/- The items of a block sequence. -/
def blockItems
    (fuel depth : Nat)
    (read : List Place) : Building (List Place) :=
  match fuel with
  | 0 => throw .malformed
  | fuel + 1 => do
      if ← nextIn [.blockEntry] then
        skip
        let n ← nodeOrAbsent fuel depth true false
          [.blockEntry, .blockEnd]
        blockItems fuel depth (n :: read)
      else
        expect .blockEnd
        return read.reverse

/- The items of a sequence without indentation. -/
def plainItems
    (fuel depth : Nat)
    (read : List Place) : Building (List Place) :=
  match fuel with
  | 0 => throw .malformed
  | fuel + 1 => do
      if ← nextIn [.blockEntry] then
        skip
        let n ← nodeOrAbsent fuel depth true false
          [.blockEntry, .key, .value, .blockEnd]
        plainItems fuel depth (n :: read)
      else return read.reverse

/- The entries of a block mapping. -/
def blockEntries
    (fuel depth : Nat)
    (read : List (Place × Place)) :
    Building (List (Place × Place)) :=
  match fuel with
  | 0 => throw .malformed
  | fuel + 1 => do
      if ← nextIn [.key] then
        skip
        let k ← nodeOrAbsent fuel depth true true
          [.key, .value, .blockEnd]
        let v ← blockValue fuel depth
        blockEntries fuel depth ((k, v) :: read)
      else
        expect .blockEnd
        return read.reverse

/- The value of an entry of a block mapping. -/
def blockValue (fuel depth : Nat) : Building Place :=
  match fuel with
  | 0 => throw .malformed
  | fuel + 1 => do
      if ← nextIn [.value] then
        skip
        nodeOrAbsent fuel depth true true
          [.key, .value, .blockEnd]
      else absent

/- The items of a flow sequence. -/
def flowItems
    (fuel depth : Nat)
    (isFirst : Bool)
    (read : List Place) : Building (List Place) :=
  match fuel with
  | 0 => throw .malformed
  | fuel + 1 => do
      if ← nextIn [.flowSequenceEnd] then
        skip
        return read.reverse
      else
        if !isFirst then expect .flowEntry
        if ← nextIn [.key] then
          skip
          let k ← nodeOrAbsent fuel (depth - 1) false false
            [.value, .flowEntry, .flowSequenceEnd]
          let v ← flowValue fuel (depth - 1) .flowSequenceEnd
          let pair ← add (.mapping .map [(k, v)])
          flowItems fuel depth false (pair :: read)
        else if ← nextIn [.flowSequenceEnd] then
          skip
          return read.reverse
        else
          let n ← nodeFrom fuel depth false false
          flowItems fuel depth false (n :: read)

/- The entries of a flow mapping. -/
def flowEntries
    (fuel depth : Nat)
    (isFirst : Bool)
    (read : List (Place × Place)) :
    Building (List (Place × Place)) :=
  match fuel with
  | 0 => throw .malformed
  | fuel + 1 => do
      if ← nextIn [.flowMappingEnd] then
        skip
        return read.reverse
      else
        if !isFirst then expect .flowEntry
        if ← nextIn [.key] then
          skip
          let k ← nodeOrAbsent fuel depth false false
            [.value, .flowEntry, .flowMappingEnd]
          let v ← flowValue fuel depth .flowMappingEnd
          flowEntries fuel depth false ((k, v) :: read)
        else if ← nextIn [.flowMappingEnd] then
          skip
          return read.reverse
        else
          let k ← nodeFrom fuel depth false false
          let v ← absent
          flowEntries fuel depth false ((k, v) :: read)

/- The value of an entry in a flow collection. -/
def flowValue
    (fuel depth : Nat)
    (close : Token) : Building Place :=
  match fuel with
  | 0 => throw .malformed
  | fuel + 1 => do
      if ← nextIn [.value] then
        skip
        nodeOrAbsent fuel depth false false [.flowEntry, close]
      else absent

end

------------------------------------------------------------
-- Documents
------------------------------------------------------------

/- The tag handles that need no directive. -/
def defaultHandles : List (List Char × List Char) :=
  [(['!'], ['!']), (['!', '!'], Tag.coreStart)]

/-
  The handles that directives explain, in front of a document.
  `seen` says whether the version was given.
-/
def directives
    (seen : Bool)
    (handles : List (List Char × List Char))
    (fuel : Nat) : Building (List (List Char × List Char)) :=
  match fuel with
  | 0 => throw .malformed
  | fuel + 1 => do
      match ← peek with
      | some (.versionDirective major) =>
          if seen || major ≠ 1 then throw .malformed
          skip
          directives true handles fuel
      | some (.tagDirective handle start) =>
          if (handles.lookup handle).isSome then throw .malformed
          skip
          directives seen ((handle, start) :: handles) fuel
      | some .otherDirective => do
          skip
          directives seen handles fuel
      | _ => return handles

/- Drop the ends of documents that come next. -/
def skipEnds : (fuel : Nat) → Building Unit
  | 0 => pure ()
  | fuel + 1 => do
      if ← nextIn [.documentEnd] then
        skip
        skipEnds fuel

/- Whether the next token is a directive. -/
def atDirective : Building Bool := do
  match ← peek with
  | some (.versionDirective _) => return true
  | some (.tagDirective _ _) => return true
  | some .otherDirective => return true
  | _ => return false

/- The root of a document with a start mark. -/
def markedRoot (fuel : Nat) : Building Place := do
  let handles ← directives false [] fuel
  modify fun s => { s with handles := handles ++ defaultHandles }
  expect .documentStart
  let isEmpty ←
    nextIn [.documentStart, .documentEnd, .streamEnd]
  if isEmpty || (← atDirective) then absent
  else nodeFrom fuel maxDepth true false

/- The root of a document, with or without a start mark. -/
def rootFrom (fuel : Nat) : Building Place := do
  if (← nextIn [.documentStart]) || (← atDirective) then
    markedRoot fuel
  else nodeFrom fuel maxDepth true false

/- The only document of a stream, if there is one. -/
def graphFrom (fuel : Nat) : Building (Option Graph) := do
  if ← nextIn [.streamEnd] then return none
  else
    let root ← rootFrom fuel
    skipEnds fuel
    expect .streamEnd
    let s ← get
    return some ⟨s.nodes, s.complete.reverse, root⟩

/-
  The only document of a token stream that may end early at a
  fault.
-/
def ofTokens
    (tokens : List Token)
    (fault : Option Document.Fault) :
    Except Document.Fault (Option Graph) :=
  let stream : Stream := ⟨tokens, [], defaultHandles, #[], []⟩
  match (graphFrom (4 * tokens.length + 8)).run stream, fault with
  | .ok (g, _), none => .ok g
  | .error .tooDeep, _ => .error .tooDeep
  | _, some e => .error e
  | .error e, none => .error e

end Graph

end Yaml

end TypedClient
