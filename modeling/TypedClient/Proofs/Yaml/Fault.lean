import TypedClient.Proofs.Yaml.GraphFault
import TypedClient.Proofs.Yaml.NodeTable
import TypedClient.Proofs.Yaml.ScanFault
import TypedClient.Yaml.Read

/-
  This file says where the faults of a YAML text come from that
  are no breach of the format.  The text is odd, its collections
  are nested too deeply, its merge keys form too long a chain, or a
  node has a type of scalars and no value of that type.

  Key definitions include:
    * `Yaml.Node.IsFaulty`
    * `Yaml.Cause`

  Key theorems include:
    * `Yaml.Graph.isFaulty_of_toDocument`
    * `Yaml.cause_of_read`
-/

namespace TypedClient

namespace Yaml

------------------------------------------------------------
-- Scalars
------------------------------------------------------------

/- The types of scalars whose readers may refuse a text. -/
def strictTags : List Tag :=
  [.bool, .int, .float, .timestamp]

/-
  Whether a node fails with a fault since it has no value of its
  type: it is a scalar of a strict type whose text is refused, or
  a mapping to which a type of scalars was given, whose text then
  stands behind an equals sign, perhaps too deep.
-/
inductive Node.IsFaulty (e : Document.Fault) : Node → Prop
  | scalar {tag : Tag} {text : RawText}
      (hTag : tag ∈ strictTags)
      (h : scalarValue tag text = .error e) :
      IsFaulty e (.scalar tag text)
  | mapping {tag : Tag} {entries : List (Place × Place)}
      (h : isScalarTag tag = true) :
      IsFaulty e (.mapping tag entries)

/- Other types accept each text, or it breaches the format. -/
theorem strict_of_scalarValue
    {tag : Tag}
    {text : RawText}
    {e : Document.Fault}
    (h : scalarValue tag text = .error e) :
    e = .malformed ∨ tag ∈ strictTags := by
  cases tag with
  | bool => exact Or.inr (by decide)
  | int => exact Or.inr (by decide)
  | float => exact Or.inr (by decide)
  | timestamp => exact Or.inr (by decide)
  | binary =>
      left
      simp only [scalarValue] at h
      split at h
      next cs hText =>
        unfold Value.binary at h
        split at h
        · split at h
          · cases h
          · exact (Except.error.inj h).symm
        · exact (Except.error.inj h).symm
      next => exact (Except.error.inj h).symm
  | null => cases h
  | str => cases h
  | _ => exact Or.inl (Except.error.inj h).symm

/- A node is faulty if it becomes a faulty one. -/
theorem Node.IsFaulty.of_becomes
    {e : Document.Fault}
    {m n : Node}
    (hBecomes : m.Becomes n)
    (h : n.IsFaulty e) : m.IsFaulty e := by
  cases hBecomes with
  | same => exact h
  | text t =>
      cases h with
      | scalar hTag h => cases h
  | mapping tag es fs =>
      cases h with
      | mapping h => exact .mapping h

theorem textAt_of_scalar
    {nodes : Nodes}
    {place : Place}
    {tag : Tag}
    {text : RawText}
    (h : nodes[place]? = some (.scalar tag text)) :
    nodes.textAt Document.maxDepth place = .ok text := by
  have hLevels : Document.maxDepth = 959 + 1 := rfl
  rw [hLevels, Nodes.textAt, h]

theorem textAt_of_sequence
    {nodes : Nodes}
    {place : Place}
    {tag : Tag}
    {items : List Place}
    (h : nodes[place]? = some (.sequence tag items)) :
    nodes.textAt Document.maxDepth place =
      .error .malformed := by
  have hLevels : Document.maxDepth = 959 + 1 := rfl
  rw [hLevels, Nodes.textAt, h]

/-
  The value of a node with a type of scalars: without one, the
  node is faulty or breaches the format.
-/
theorem isFaulty_of_leafAt
    {nodes : Nodes}
    {place : Place}
    {e : Document.Fault}
    (hTag : isScalarTag (nodes.tagAt place) = true)
    (h : nodes.leafAt place = .error e) :
    e = .malformed ∨
      ∃ n, nodes[place]? = some n ∧ n.IsFaulty e := by
  cases hNode : nodes[place]? with
  | none =>
      have hUnknown : nodes.tagAt place = .unknown := by
        rw [Nodes.tagAt, hNode]
      rw [hUnknown] at hTag
      cases hTag
  | some n =>
      have hSame : nodes.tagAt place = n.tag := by
        rw [Nodes.tagAt, hNode]
      rw [hSame] at hTag
      cases n with
      | mapping tag entries =>
          exact Or.inr ⟨_, rfl, .mapping hTag⟩
      | sequence tag items =>
          rw [Nodes.leafAt, textAt_of_sequence hNode] at h
          cases h
          exact Or.inl rfl
      | scalar tag text =>
          have hMapping : nodes.isMapping place = false := by
            rw [Nodes.isMapping, hNode]
          have hValue : scalarValue tag text = .error e := by
            rw [Nodes.leafAt, textAt_of_scalar hNode, hMapping,
              hSame] at h
            exact h
          exact (strict_of_scalarValue hValue).imp_right
            fun hStrict => ⟨_, rfl, .scalar hStrict hValue⟩

------------------------------------------------------------
-- Progress
------------------------------------------------------------

/-
  What a step of reading does, where `nodes` are those of the
  graph: it keeps them and brings in no merge key, or breaches the
  format, or meets a faulty one among them or too long a chain of
  merge keys.
-/
inductive Reads
    (nodes : Nodes)
    (x : Except Document.Fault Progress) : Prop
  | done (p : Progress)
      (h : x = .ok p)
      (hStems : nodes.Stems p.nodes)
  | malformed (h : x = .error .malformed)
  | deep (place : Place)
      (h : x = .error .tooDeep)
      (hChain : nodes.MergeChain Document.maxDepth place)
  | faulty (e : Document.Fault) (place : Place) (n : Node)
      (h : x = .error e)
      (hNode : nodes[place]? = some n)
      (hFaulty : n.IsFaulty e)

namespace Progress

variable {nodes : Nodes}
variable {p : Progress}

/- Two steps in a row read if each of them does. -/
theorem reads_bind
    {x : Except Document.Fault Progress}
    {f : Progress → Except Document.Fault Progress}
    (hFirst : Reads nodes x)
    (hNext : ∀ q, nodes.Stems q.nodes → Reads nodes (f q)) :
    Reads nodes (x >>= f) := by
  cases hFirst with
  | done q h hStems =>
      subst h
      exact hNext q hStems
  | malformed h =>
      subst h
      exact .malformed rfl
  | deep place h hChain =>
      subst h
      exact .deep place rfl hChain
  | faulty e place n h hNode hFaulty =>
      subst h
      exact .faulty e place n rfl hNode hFaulty

/- Steps over a list read if each of them does. -/
theorem reads_foldlM
    {α : Type}
    {f : Progress → α → Except Document.Fault Progress}
    (hStep : ∀ q a, nodes.Stems q.nodes → Reads nodes (f q a))
    (as : List α)
    (hStems : nodes.Stems p.nodes) :
    Reads nodes (as.foldlM f p) := by
  induction as generalizing p with
  | nil => exact .done p rfl hStems
  | cons a as ih =>
      rw [List.foldlM_cons]
      exact reads_bind (hStep p a hStems) fun q hQ => ih hQ

/- A node is read for the first time. -/
theorem reads_firstTouch
    (hStems : nodes.Stems p.nodes)
    (place : Place) : Reads nodes (p.firstTouch place) := by
  unfold firstTouch
  dsimp only
  split
  next hTag =>
    cases hLeaf : p.nodes.leafAt place with
    | ok d => exact .done _ rfl hStems
    | error e =>
        rcases isFaulty_of_leafAt hTag hLeaf with
          rfl | ⟨n, hNode, hFaulty⟩
        · exact .malformed rfl
        · rcases hStems.keeps place n hNode with
            ⟨m, hM, hBecomes⟩
          exact .faulty e place m rfl hM
            (hFaulty.of_becomes hBecomes)
  next =>
    split
    · exact .done _ rfl hStems
    · exact .malformed rfl

theorem reads_touch
    (hStems : nodes.Stems p.nodes)
    (place : Place) : Reads nodes (p.touch place) := by
  unfold touch
  split
  · exact reads_firstTouch hStems place
  · exact .done p rfl hStems

theorem reads_touchEntry
    (hStems : nodes.Stems p.nodes)
    (e : Entry) : Reads nodes (p.touchEntry e) := by
  refine reads_bind (reads_touch hStems e.1) fun q hQ => ?_
  dsimp only
  split
  · exact .malformed rfl
  · exact reads_touch hQ e.2

theorem reads_touchPair
    (hStems : nodes.Stems p.nodes)
    (place : Place) : Reads nodes (p.touchPair place) := by
  unfold touchPair
  split
  next tag e h =>
    exact reads_bind (reads_touch hStems e.1) fun q hQ =>
      reads_touch hQ e.2
  next => exact .malformed rfl

/- The parts of a collection are read. -/
theorem reads_touchParts
    (hStems : nodes.Stems p.nodes)
    (place : Place) : Reads nodes (p.touchParts place) := by
  have hTouch (q : Progress) (i : Place)
      (hQ : nodes.Stems q.nodes) := reads_touch hQ i
  have hPair (q : Progress) (i : Place)
      (hQ : nodes.Stems q.nodes) := reads_touchPair hQ i
  have hEntry (q : Progress) (e : Entry)
      (hQ : nodes.Stems q.nodes) := reads_touchEntry hQ e
  unfold touchParts
  split
  next items h => exact reads_foldlM hTouch items hStems
  next items h => exact reads_foldlM hPair items hStems
  next items h => exact reads_foldlM hPair items hStems
  next tag entries h =>
    split
    · cases Nodes.merging_flatten hStems p.mergeSteps
        Document.maxDepth place with
      | done later hRun hLater =>
          rw [hRun]
          exact reads_foldlM hEntry _ hLater
      | malformed hRun =>
          rw [hRun]
          exact .malformed rfl
      | tooDeep hRun hChain =>
          rw [hRun]
          exact .deep place rfl hChain
    · exact .malformed rfl
  next => exact .malformed rfl

/- All collections that wait are read. -/
theorem reads_finish
    (fuel : Nat)
    (hStems : nodes.Stems p.nodes) :
    Reads nodes (p.finish fuel) := by
  induction fuel generalizing p with
  | zero => exact .done p rfl hStems
  | succ fuel ih =>
      rw [finish]
      split
      · exact .done p rfl hStems
      · exact reads_bind
          (reads_foldlM (fun q i hQ => reads_touchParts hQ i) _
            hStems)
          fun q hQ => ih hQ

end Progress

/-
  A graph that gives no document breaches the format, has a faulty
  node, or has too long a chain of merge keys.
-/
theorem Graph.isFaulty_of_toDocument
    {g : Graph}
    {e : Document.Fault}
    (h : g.toDocument = .error e) :
    e = .malformed ∨
      (e = .tooDeep ∧
        ∃ place,
          Nodes.MergeChain g.nodes Document.maxDepth place) ∨
      ∃ (place : Place) (n : Node),
        g.nodes[place]? = some n ∧ n.IsFaulty e := by
  have hStart : Reads g.nodes
      ((Progress.start g.nodes).touch g.root >>= fun p =>
        p.finish (g.nodes.size + 1)) :=
    Progress.reads_bind
      (Progress.reads_touch (Nodes.Stems.refl g.nodes) g.root)
      fun q hQ => Progress.reads_finish _ hQ
  have hSame : g.toDocument =
      (((Progress.start g.nodes).touch g.root >>= fun p =>
        p.finish (g.nodes.size + 1)) >>= fun p =>
          .ok (p.unfold
            (g.order.foldl p.settle
              (Array.replicate g.nodes.size none))
            (g.nodes.size + freeLevels + 2) freeLevels
            [] g.root)) := by
    rw [bind_assoc]
    rfl
  rw [hSame] at h
  cases hStart with
  | done p hRun hStems =>
      rw [hRun] at h
      cases h
  | malformed hRun =>
      rw [hRun] at h
      cases h
      exact Or.inl rfl
  | deep place hRun hChain =>
      rw [hRun] at h
      cases h
      exact Or.inr (Or.inl ⟨rfl, place, hChain⟩)
  | faulty e' place n hRun hNode hFaulty =>
      rw [hRun] at h
      cases h
      exact Or.inr (Or.inr ⟨place, n, hNode, hFaulty⟩)

------------------------------------------------------------
-- Texts
------------------------------------------------------------

/- The graph of the only document of a text, if there is one. -/
def graphOf
    (text : List Char) : Except Document.Fault (Option Graph) :=
  Graph.ofTokens (Token.scan text).1 (Token.scan text).2

/- The document of the graph of a text, null if there is none. -/
def documentOf :
    Option Graph → Except Document.Fault Document
  | none => .ok .null
  | some g => g.toDocument

/-
  Why a text gives no document although it may not breach the
  format: it is odd where the scanner stops, collections are
  nested too deeply, merge keys of its graph form too long a
  chain, or a node of its graph is faulty.
-/
inductive Cause (text : List Char) (e : Document.Fault) : Prop
  | odd (h : (Token.scan text).2 = some e) (hOdd : IsOdd text)
  | deep (h : graphOf text = .error .tooDeep) (hE : e = .tooDeep)
  | merges (g : Graph) (place : Place)
      (hGraph : graphOf text = .ok (some g))
      (hChain : Nodes.MergeChain g.nodes Document.maxDepth place)
      (hE : e = .tooDeep)
  | node (g : Graph) (place : Place) (n : Node)
      (hGraph : graphOf text = .ok (some g))
      (hNode : g.nodes[place]? = some n)
      (hFaulty : n.IsFaulty e)

/- A text with another fault than a breach has a cause for it. -/
theorem cause_of_read
    {text : List Char}
    {e : Document.Fault}
    (h : read text = .error e)
    (hOther : e ≠ .malformed) : Cause text e := by
  have hRead : read text = graphOf text >>= documentOf := by
    rw [read, graphOf]
    refine bind_congr fun g => ?_
    cases g with
    | none => rfl
    | some g => rfl
  rw [hRead] at h
  cases hGraph : graphOf text with
  | error e' =>
      rw [hGraph] at h
      cases h
      rcases Graph.fault_of_ofTokens hGraph with
        hScan | hForm | hForm
      · exact .odd hScan (isOdd_of_scan hScan hOther)
      · exact absurd hForm hOther
      · exact .deep (hForm ▸ hGraph) hForm
  | ok found =>
      rw [hGraph] at h
      cases found with
      | none => cases h
      | some g =>
          rcases Graph.isFaulty_of_toDocument h with
            hForm | ⟨hDeep, place, hChain⟩ |
              ⟨place, n, hNode, hFaulty⟩
          · exact absurd hForm hOther
          · exact .merges g place hGraph hChain hDeep
          · exact .node g place n hGraph hNode hFaulty

end Yaml

end TypedClient
