import TypedClient.Proofs.Yaml.NodeTable
import TypedClient.Yaml.Read

/-
  This file shows that the collections of a table are all opened,
  level by level, if the table is like those of JSON texts: no
  node is a part of itself, keys are texts, and every scalar has
  a value.

  Key definitions include:
    * `Yaml.Node.IsSimple`
    * `Yaml.Progress.Going`
    * `Yaml.Progress.Reaches`

  Key theorems include:
    * `Yaml.Progress.exists_touchParts`
    * `Yaml.Progress.exists_finish`
    * `Yaml.Progress.exists_finished`
-/

namespace TypedClient

namespace Yaml

------------------------------------------------------------
-- Simple tables
------------------------------------------------------------

/- The places of the parts of a node. -/
def Node.parts : Node → List Place
  | .scalar _ _ => []
  | .sequence _ items => items
  | .mapping _ entries => entries.flatMap fun e => [e.1, e.2]

/-
  A node as JSON has them: a scalar with a value, or a collection
  whose parts stand behind it and whose keys are texts.
-/
inductive Node.IsSimple (nodes : Nodes) (place : Place) :
    Node → Prop
  | scalar {tag : Tag} {text : RawText} {d : Document}
      (hTag : isScalarTag tag = true)
      (hValue : scalarValue tag text = .ok d) :
      IsSimple nodes place (.scalar tag text)
  | sequence {items : List Place}
      (hItems : ∀ i ∈ items, place < i ∧ i < nodes.size) :
      IsSimple nodes place (.sequence .seq items)
  | mapping {entries : List Entry}
      (hEntries : ∀ e ∈ entries,
        (place < e.1 ∧ e.1 < nodes.size) ∧
          (place < e.2 ∧ e.2 < nodes.size))
      (hKeys : ∀ e ∈ entries,
        ∃ t, nodes[e.1]? = some (.scalar .str t)) :
      IsSimple nodes place (.mapping .map entries)

/- A table whose nodes are all simple. -/
def Nodes.AreSimple (nodes : Nodes) : Prop :=
  ∀ (place : Place) (n : Node), nodes[place]? = some n →
    n.IsSimple nodes place

/- The parts of a simple node stand behind it. -/
theorem Node.IsSimple.parts
    {nodes : Nodes}
    {place : Place}
    {n : Node}
    (h : n.IsSimple nodes place) :
    ∀ i ∈ n.parts, place < i ∧ i < nodes.size := by
  intro i hI
  cases h with
  | scalar => cases hI
  | sequence hItems => exact hItems i hI
  | mapping hEntries =>
      rcases List.mem_flatMap.1 hI with ⟨e, hE, hI⟩
      simp only [List.mem_cons, List.not_mem_nil, or_false] at hI
      rcases hI with rfl | rfl
      · exact (hEntries e hE).1
      · exact (hEntries e hE).2

------------------------------------------------------------
-- Merge keys
------------------------------------------------------------

namespace Nodes

variable {nodes : Nodes}

/- A node that is put where it stands changes nothing. -/
theorem setIfInBounds_self
    {place : Place}
    {n : Node}
    (h : nodes[place]? = some n) :
    nodes.setIfInBounds place n = nodes := by
  refine Array.ext_getElem? fun i => ?_
  rw [Array.getElem?_setIfInBounds]
  split
  next hSame =>
    subst hSame
    rw [h]
    exact if_pos (Array.getElem?_eq_some_iff.1 h).1
  next => rfl

/- Entries whose keys are texts hold no merge key. -/
theorem splitMerge?_of_texts
    {entries : List Entry}
    (h : ∀ e ∈ entries,
      ∃ t, nodes[e.1]? = some (.scalar .str t)) :
    splitMerge? nodes entries = none := by
  induction entries with
  | nil => rfl
  | cons e es ih =>
      rcases h e List.mem_cons_self with ⟨t, hT⟩
      have hTag : nodes.tagAt e.1 ≠ .merge := by
        rw [tagAt, hT]
        exact Tag.noConfusion
      rw [splitMerge?, if_neg hTag,
        ih fun f hF => h f (List.mem_cons_of_mem e hF)]
      rfl

/- Texts for keys stay as they are. -/
theorem foldl_plainKey_of_texts
    {entries : List Entry}
    (h : ∀ e ∈ entries,
      ∃ t, nodes[e.1]? = some (.scalar .str t)) :
    entries.foldl plainKey nodes = nodes := by
  induction entries with
  | nil => rfl
  | cons e es ih =>
      rcases h e List.mem_cons_self with ⟨t, hT⟩
      have hKey : nodes.plainKey e = nodes := by
        rw [plainKey, hT]
      rw [List.foldl_cons, hKey]
      exact ih fun f hF => h f (List.mem_cons_of_mem e hF)

/- There are steps enough for a table. -/
theorem exists_mergeSteps (nodes : Nodes) :
    ∃ fuel, nodes.mergeSteps = fuel + 2 := by
  have hGrows (ns : List Node) (k : Nat) :
      k ≤ ns.foldl (fun n node => n + partCount node) k := by
    induction ns generalizing k with
    | nil => exact Nat.le_refl k
    | cons node ns ih =>
        exact Nat.le_trans (Nat.le_add_right k _) (ih _)
  have hParts :
      4 ≤ nodes.foldl (fun n node => n + partCount node) 4 := by
    rw [← Array.foldl_toList]
    exact hGrows nodes.toList 4
  have hSquare := Nat.mul_le_mul hParts hParts
  exact Nat.exists_eq_add_of_le'
    (Nat.le_trans (by decide : 2 ≤ 4 * 4) hSquare)

/- A mapping without merge keys stays as it is. -/
theorem flatten_of_texts
    {place : Place}
    {entries : List Entry}
    (hNode : nodes[place]? = some (.mapping .map entries))
    (h : ∀ e ∈ entries,
      ∃ t, nodes[e.1]? = some (.scalar .str t)) :
    nodes.flatten nodes.mergeSteps Document.maxDepth place =
      .ok nodes := by
  rcases exists_mergeSteps nodes with ⟨fuel, hFuel⟩
  have hEntries : nodes.entriesAt place = entries := by
    rw [entriesAt, hNode]
  have hDescend : Document.descend Document.maxDepth =
      .ok (Document.maxDepth - 1) := rfl
  have hMerges : nodes.takeMerges (fuel + 1)
      (Document.maxDepth - 1) place [] = .ok (nodes, []) := by
    rw [takeMerges, hEntries, splitMerge?_of_texts h]
    rfl
  have hSame : nodes.withEntries place entries = nodes := by
    rw [withEntries, hNode]
    exact setIfInBounds_self hNode
  rw [hFuel, flatten, hDescend]
  change (nodes.takeMerges (fuel + 1) (Document.maxDepth - 1)
    place [] >>= _) = _
  rw [hMerges]
  change Except.ok (((nodes.entriesAt place).foldl plainKey
    nodes).withEntries place ([] ++ nodes.entriesAt place)) = _
  rw [hEntries, foldl_plainKey_of_texts h, List.nil_append, hSame]

end Nodes

namespace Progress

variable {nodes : Nodes}
variable {p q r : Progress}
variable {pending : List Place}

------------------------------------------------------------
-- What is known
------------------------------------------------------------

/- What may be known of a node. -/
inductive IsKnown : Node → Standing → Prop
  | unread (n : Node) : IsKnown n .unread
  | leaf {tag : Tag} {text : RawText} {d : Document}
      (hValue : scalarValue tag text = .ok d) :
      IsKnown (.scalar tag text) (.leaf d)
  | sequence (items : List Place) :
      IsKnown (.sequence .seq items) .opened
  | mapping (entries : List Entry) :
      IsKnown (.mapping .map entries) .opened

/- Whether a node was read. -/
def IsRead (p : Progress) (place : Place) : Prop :=
  ∃ st, p.standings[place]? = some st ∧ st ≠ .unread

/-
  The progress in a table of simple nodes: what is known of each
  node, and that the parts of an opened collection were read,
  unless it waits for that, or is pending.
-/
structure Going
    (p : Progress)
    (nodes : Nodes)
    (pending : List Place) : Prop where
  table : p.nodes = nodes
  steps : p.mergeSteps = nodes.mergeSteps
  known : ∀ (place : Place) (n : Node), nodes[place]? = some n →
    ∃ st, p.standings[place]? = some st ∧ IsKnown n st
  waiting : ∀ w ∈ p.waiting, ∃ n, nodes[w]? = some n ∧
    IsKnown n .opened
  parts : ∀ (place : Place) (n : Node), nodes[place]? = some n →
    p.standings[place]? = some .opened →
      place ∈ p.waiting ∨ place ∈ pending ∨
        ∀ i ∈ n.parts, p.IsRead i

/-
  The way from one progress to another on which some nodes are
  read.
-/
structure Reaches
    (p : Progress)
    (places : List Place)
    (q : Progress) : Prop where
  kept : ∀ i, p.IsRead i → q.IsRead i
  read : ∀ i ∈ places, q.IsRead i
  waiting : ∀ w ∈ q.waiting, w ∈ p.waiting ∨ w ∈ places

theorem Reaches.refl (p : Progress) : p.Reaches [] p :=
  ⟨fun _ h => h, fun _ h => (nomatch h), fun _ h => Or.inl h⟩

/- Ways add up. -/
theorem Reaches.trans
    {places others : List Place}
    (h : p.Reaches places q)
    (hNext : q.Reaches others r) : p.Reaches (places ++ others) r where
  kept i hI := hNext.kept i (h.kept i hI)
  read i hI := by
    rcases List.mem_append.1 hI with hI | hI
    · exact hNext.kept i (h.read i hI)
    · exact hNext.read i hI
  waiting w hW := by
    rcases hNext.waiting w hW with hW | hW
    · exact (h.waiting w hW).imp_right (List.mem_append_left others)
    · exact Or.inr (List.mem_append_right _ hW)

------------------------------------------------------------
-- Nodes
------------------------------------------------------------

/- A note on a node that is there replaces what was known. -/
theorem standings_note
    {place : Place}
    {old : Standing}
    (h : p.standings[place]? = some old)
    (st : Standing)
    (i : Place) :
    (p.note place st).standings[i]? =
      if place = i then some st else p.standings[i]? := by
  change (p.standings.setIfInBounds place st)[i]? = _
  rw [Array.getElem?_setIfInBounds]
  split
  next => exact if_pos (Array.getElem?_eq_some_iff.1 h).1
  next => rfl

/- A note is progress; an opened collection has to wait. -/
theorem Going.note
    (h : p.Going nodes pending)
    {place : Place}
    {n : Node}
    {st : Standing}
    (hNode : nodes[place]? = some n)
    (hKnown : IsKnown n st)
    (hRead : st ≠ .unread)
    {ws : List Place}
    (hKept : ∀ w ∈ p.waiting, w ∈ ws)
    (hNew : ∀ w ∈ ws, w ∈ p.waiting ∨ w = place ∧ st = .opened)
    (hOpened : st = .opened → place ∈ ws) :
    ({ p.note place st with waiting := ws }).Going nodes pending ∧
      p.Reaches [place] { p.note place st with waiting := ws } := by
  rcases h.known place n hNode with ⟨old, hOld, -⟩
  have hStandings := standings_note hOld st
  have hReads (i : Place) (hI : p.IsRead i) :
      IsRead { p.note place st with waiting := ws } i := by
    rcases hI with ⟨other, hOther, hOtherRead⟩
    by_cases hSame : place = i
    · exact ⟨st, (hStandings i).trans (if_pos hSame), hRead⟩
    · exact ⟨other, ((hStandings i).trans (if_neg hSame)).trans
        hOther, hOtherRead⟩
  constructor
  · constructor
    case table => exact h.table
    case steps => exact h.steps
    case known =>
      intro i m hM
      by_cases hSame : place = i
      · subst hSame
        cases hNode.symm.trans hM
        exact ⟨st, (hStandings place).trans (if_pos rfl), hKnown⟩
      · rcases h.known i m hM with ⟨other, hOther, hIs⟩
        exact ⟨other, ((hStandings i).trans (if_neg hSame)).trans
          hOther, hIs⟩
    case waiting =>
      intro w hW
      rcases hNew w hW with hW | ⟨rfl, rfl⟩
      · exact h.waiting w hW
      · exact ⟨n, hNode, hKnown⟩
    case parts =>
      intro i m hM hIs
      by_cases hSame : place = i
      · -- a collection that is opened here waits for its parts
        subst hSame
        have hSt := (hStandings place).trans (if_pos rfl)
        exact Or.inl (hOpened (Option.some.inj (hSt.symm.trans hIs)))
      · have hOther := (hStandings i).trans (if_neg hSame)
        rcases h.parts i m hM (hOther.symm.trans hIs) with
          hI | hI | hI
        · exact Or.inl (hKept i hI)
        · exact Or.inr (Or.inl hI)
        · exact Or.inr (Or.inr fun j hJ => hReads j (hI j hJ))
  · constructor
    case kept => exact hReads
    case read =>
      intro i hI
      cases List.mem_singleton.1 hI
      exact ⟨st, (hStandings place).trans (if_pos rfl), hRead⟩
    case waiting =>
      intro w hW
      refine (hNew w hW).imp_right fun hBoth => ?_
      exact List.mem_singleton.2 hBoth.1

/- The value of a scalar is found. -/
theorem leafAt_of_scalar
    {place : Place}
    {tag : Tag}
    {text : RawText}
    (h : nodes[place]? = some (.scalar tag text)) :
    nodes.leafAt place = scalarValue tag text := by
  have hTag : nodes.tagAt place = tag := by
    rw [Nodes.tagAt, h]
    rfl
  have hText : nodes.textAt Document.maxDepth place =
      .ok text := by
    rw [Document.maxDepth, Nodes.textAt, h]
  have hMapping : nodes.isMapping place = false := by
    rw [Nodes.isMapping, h]
  rw [Nodes.leafAt, hTag, hText]
  change (if (nodes.isMapping place && decide (tag = .timestamp)) =
    true then _ else scalarValue tag text) = _
  rw [hMapping]
  rfl

/- A collection is opened, and waits. -/
theorem exists_opened
    (h : p.Going nodes pending)
    {place : Place}
    {n : Node}
    (hNode : nodes[place]? = some n)
    (hKnown : IsKnown n .opened) :
    ∃ q, p.firstTouch place = .ok q ∧ q.Going nodes pending ∧
      p.Reaches [place] q := by
  have hTag : p.nodes.tagAt place = n.tag := by
    rw [h.table, Nodes.tagAt, hNode]
  have hScalar : isScalarTag n.tag = false := by
    cases hKnown with
    | sequence items => rfl
    | mapping entries => rfl
  have hCollection : isCollectionTag n.tag = true := by
    cases hKnown with
    | sequence items => rfl
    | mapping entries => rfl
  refine ⟨_, ?_, h.note hNode hKnown Standing.noConfusion
    (fun w hW => List.mem_cons_of_mem place hW) (fun w hW => ?_)
    (fun _ => List.mem_cons_self)⟩
  · rw [firstTouch, hTag]
    dsimp only
    rw [hScalar, if_neg Bool.false_ne_true, hCollection, if_pos rfl]
    rfl
  · rcases List.mem_cons.1 hW with rfl | hW
    · exact Or.inr ⟨rfl, rfl⟩
    · exact Or.inl hW

/- A simple node is read for the first time. -/
theorem exists_firstTouch
    (hSimple : nodes.AreSimple)
    (h : p.Going nodes pending)
    {place : Place}
    {n : Node}
    (hNode : nodes[place]? = some n) :
    ∃ q, p.firstTouch place = .ok q ∧ q.Going nodes pending ∧
      p.Reaches [place] q := by
  cases hSimple place n hNode with
  | @scalar tag text d hTag hValue =>
      refine ⟨_, ?_, h.note hNode (.leaf hValue)
        Standing.noConfusion (fun w hW => hW)
        (fun w hW => Or.inl hW) (fun hNot => nomatch hNot)⟩
      have hLeaf : nodes.leafAt place = .ok d :=
        (leafAt_of_scalar hNode).trans hValue
      have hTagAt : nodes.tagAt place = tag := by
        rw [Nodes.tagAt, hNode]
        rfl
      rw [firstTouch, h.table, hTagAt, hLeaf]
      dsimp only
      rw [hTag, if_pos rfl]
      rfl
  | sequence => exact exists_opened h hNode (.sequence _)
  | mapping => exact exists_opened h hNode (.mapping _)

/- A node is read, if it has not been read. -/
theorem exists_touch
    (hSimple : nodes.AreSimple)
    (h : p.Going nodes pending)
    {place : Place}
    (hPlace : place < nodes.size) :
    ∃ q, p.touch place = .ok q ∧ q.Going nodes pending ∧
      p.Reaches [place] q := by
  have hNode : nodes[place]? = some nodes[place] :=
    Array.getElem?_eq_getElem hPlace
  rcases h.known place _ hNode with ⟨st, hSt, -⟩
  have hDone (hRead : st ≠ .unread) : p.Reaches [place] p := by
    refine ⟨fun _ hI => hI, ?_, fun _ hW => Or.inl hW⟩
    intro i hI
    cases List.mem_singleton.1 hI
    exact ⟨st, hSt, hRead⟩
  unfold touch
  rw [hSt]
  cases st with
  | unread => exact exists_firstTouch hSimple h hNode
  | leaf d => exact ⟨p, rfl, h, hDone Standing.noConfusion⟩
  | opened => exact ⟨p, rfl, h, hDone Standing.noConfusion⟩

------------------------------------------------------------
-- Parts
------------------------------------------------------------

/- Nodes are read one after another. -/
theorem exists_touches
    (hSimple : nodes.AreSimple)
    (h : p.Going nodes pending)
    {places : List Place}
    (hPlaces : ∀ i ∈ places, i < nodes.size) :
    ∃ q, places.foldlM touch p = .ok q ∧ q.Going nodes pending ∧
      p.Reaches places q := by
  induction places generalizing p with
  | nil => exact ⟨p, rfl, h, .refl p⟩
  | cons i places ih =>
      rcases exists_touch hSimple h (hPlaces i List.mem_cons_self)
        with ⟨q, hTouch, hQ, hReaches⟩
      rcases ih hQ fun j hJ => hPlaces j (List.mem_cons_of_mem i hJ)
        with ⟨r, hTouches, hR, hMore⟩
      refine ⟨r, ?_, hR, hReaches.trans hMore⟩
      rw [List.foldlM_cons, hTouch]
      exact hTouches

/- A text that was read has a value. -/
theorem leaf?_of_text
    (h : p.Going nodes pending)
    {place : Place}
    {t : RawText}
    (hNode : nodes[place]? = some (.scalar .str t))
    (hRead : p.IsRead place) : (p.leaf? place).isNone = false := by
  rcases hRead with ⟨st, hSt, hUnread⟩
  rcases h.known place _ hNode with ⟨other, hOther, hKnown⟩
  cases hSt.symm.trans hOther
  rw [leaf?, hSt]
  cases hKnown with
  | unread => exact (hUnread rfl).elim
  | leaf hValue => rfl

/- The entries of a mapping are read one after another. -/
theorem exists_touchEntries
    (hSimple : nodes.AreSimple)
    (h : p.Going nodes pending)
    {entries : List Entry}
    (hEntries : ∀ e ∈ entries,
      e.1 < nodes.size ∧ e.2 < nodes.size)
    (hKeys : ∀ e ∈ entries,
      ∃ t, nodes[e.1]? = some (.scalar .str t)) :
    ∃ q, entries.foldlM touchEntry p = .ok q ∧
      q.Going nodes pending ∧
        p.Reaches (entries.flatMap fun e => [e.1, e.2]) q := by
  induction entries generalizing p with
  | nil => exact ⟨p, rfl, h, .refl p⟩
  | cons e entries ih =>
      rcases hEntries e List.mem_cons_self with ⟨hFirst, hSecond⟩
      rcases hKeys e List.mem_cons_self with ⟨t, hKey⟩
      rcases exists_touch hSimple h hFirst with
        ⟨q, hTouch, hQ, hReaches⟩
      rcases exists_touch hSimple hQ hSecond with
        ⟨r, hNext, hR, hMore⟩
      rcases ih hR
        (fun f hF => hEntries f (List.mem_cons_of_mem e hF))
        (fun f hF => hKeys f (List.mem_cons_of_mem e hF)) with
        ⟨u, hOthers, hU, hRest⟩
      have hLeaf := leaf?_of_text hQ hKey
        (hReaches.read e.1 (List.mem_singleton.2 rfl))
      have hEntry : p.touchEntry e = .ok r := by
        rw [touchEntry, hTouch]
        change (if (q.leaf? e.1).isNone = true then _ else
          q.touch e.2) = _
        rw [hLeaf, if_neg Bool.false_ne_true, hNext]
      refine ⟨u, ?_, hU, (hReaches.trans hMore).trans hRest⟩
      rw [List.foldlM_cons, hEntry]
      exact hOthers

/- The parts of a collection are read. -/
theorem exists_touchParts
    (hSimple : nodes.AreSimple)
    (h : p.Going nodes pending)
    {place : Place}
    {n : Node}
    (hNode : nodes[place]? = some n)
    (hKnown : IsKnown n .opened) :
    ∃ q, p.touchParts place = .ok q ∧ q.Going nodes pending ∧
      p.Reaches n.parts q := by
  have hIsSimple := hSimple place n hNode
  have hParts := hIsSimple.parts
  cases hKnown with
  | sequence items =>
      rw [touchParts, h.table, hNode]
      exact exists_touches hSimple h fun i hI => (hParts i hI).2
  | mapping entries =>
      cases hIsSimple with
      | mapping hEntries hKeys =>
          have hSame : ({ p with nodes := nodes } : Progress) = p := by
            rw [← h.table]
          have hFlatten : nodes.flatten p.mergeSteps
              Document.maxDepth place = .ok nodes := by
            rw [h.steps]
            exact Nodes.flatten_of_texts hNode hKeys
          have hTouch : p.touchParts place =
              entries.foldlM touchEntry p := by
            rw [touchParts, h.table, hNode]
            dsimp only
            rw [if_pos (Or.inl rfl), hFlatten]
            change (nodes.entriesAt place).foldlM touchEntry
              { p with nodes := nodes } = _
            rw [hSame, Nodes.entriesAt, hNode]
          rw [hTouch]
          exact exists_touchEntries hSimple h
            (fun e hE => ⟨(hEntries e hE).1.2, (hEntries e hE).2.2⟩)
            hKeys

------------------------------------------------------------
-- Levels
------------------------------------------------------------

/- A collection whose parts were read is pending no more. -/
theorem Going.done
    {place : Place}
    {n : Node}
    (h : p.Going nodes (place :: pending))
    (hNode : nodes[place]? = some n)
    (hParts : ∀ i ∈ n.parts, p.IsRead i) :
    p.Going nodes pending where
  table := h.table
  steps := h.steps
  known := h.known
  waiting := h.waiting
  parts i m hM hOpened := by
    rcases h.parts i m hM hOpened with hI | hI | hI
    · exact Or.inl hI
    · rcases List.mem_cons.1 hI with rfl | hI
      · cases hNode.symm.trans hM
        exact Or.inr (Or.inr hParts)
      · exact Or.inr (Or.inl hI)
    · exact Or.inr (Or.inr hI)

/-
  The collections of a level are opened.  What waits then stands
  behind one of them.
-/
theorem exists_level
    (hSimple : nodes.AreSimple)
    {level : List Place}
    (h : p.Going nodes level)
    (hLevel : ∀ w ∈ level, ∃ n, nodes[w]? = some n ∧
      IsKnown n .opened) :
    ∃ q, level.foldlM touchParts p = .ok q ∧ q.Going nodes [] ∧
      (∀ i, p.IsRead i → q.IsRead i) ∧
        ∀ w ∈ q.waiting, w ∈ p.waiting ∨ ∃ l ∈ level, l < w := by
  induction level generalizing p with
  | nil =>
      exact ⟨p, rfl, h, fun _ hI => hI, fun _ hW => Or.inl hW⟩
  | cons place level ih =>
      rcases hLevel place List.mem_cons_self with
        ⟨n, hNode, hKnown⟩
      rcases exists_touchParts hSimple h hNode hKnown with
        ⟨q, hTouch, hQ, hReaches⟩
      rcases ih (hQ.done hNode hReaches.read)
        (fun w hW => hLevel w (List.mem_cons_of_mem place hW)) with
        ⟨r, hFold, hR, hKept, hWaiting⟩
      refine ⟨r, ?_, hR, fun i hI => hKept i (hReaches.kept i hI),
        fun w hW => ?_⟩
      · rw [List.foldlM_cons, hTouch]
        exact hFold
      · rcases hWaiting w hW with hW | ⟨l, hL, hLt⟩
        · refine (hReaches.waiting w hW).imp_right fun hPart => ?_
          exact ⟨place, List.mem_cons_self,
            ((hSimple place n hNode).parts w hPart).1⟩
        · exact Or.inr ⟨l, List.mem_cons_of_mem place hL, hLt⟩

/- What waits is put aside to be looked at. -/
theorem Going.aside
    (h : p.Going nodes []) :
    ({ p with waiting := [] }).Going nodes p.waiting.reverse where
  table := h.table
  steps := h.steps
  known := h.known
  waiting _ hW := nomatch hW
  parts i m hM hOpened := by
    rcases h.parts i m hM hOpened with hI | hI | hI
    · exact Or.inr (Or.inl (List.mem_reverse.2 hI))
    · cases hI
    · exact Or.inr (Or.inr hI)

/-
  All collections are opened.  Each level stands behind the one
  before it, so that there are no more levels than nodes.
-/
theorem exists_finish
    (hSimple : nodes.AreSimple)
    (h : p.Going nodes [])
    {first fuel : Nat}
    (hFirst : ∀ w ∈ p.waiting, first ≤ w)
    (hFuel : nodes.size < first + fuel) :
    ∃ q, p.finish fuel = .ok q ∧ q.Going nodes [] ∧
      q.waiting = [] ∧ ∀ i, p.IsRead i → q.IsRead i := by
  induction fuel generalizing p first with
  | zero =>
      refine ⟨p, rfl, h, ?_, fun _ hI => hI⟩
      refine List.eq_nil_iff_forall_not_mem.2 fun w hW => ?_
      rcases h.waiting w hW with ⟨n, hN, -⟩
      have hLt := (Array.getElem?_eq_some_iff.1 hN).1
      have hLe := hFirst w hW
      omega
  | succ fuel ih =>
      cases hWaiting : p.waiting with
      | nil =>
          refine ⟨p, ?_, h, hWaiting, fun _ hI => hI⟩
          rw [finish, hWaiting]
      | cons w ws =>
          have hLevel : ∀ v ∈ p.waiting.reverse, ∃ n,
              nodes[v]? = some n ∧ IsKnown n .opened :=
            fun v hV => h.waiting v (List.mem_reverse.1 hV)
          rcases exists_level hSimple h.aside hLevel with
            ⟨q, hFold, hQ, hKept, hNext⟩
          have hBehind : ∀ v ∈ q.waiting, first + 1 ≤ v := by
            intro v hV
            rcases hNext v hV with hNone | ⟨l, hL, hLt⟩
            · cases hNone
            · exact Nat.lt_of_le_of_lt
                (hFirst l (List.mem_reverse.1 hL)) hLt
          rcases ih hQ hBehind (by omega) with
            ⟨r, hFinish, hR, hEnd, hMore⟩
          refine ⟨r, ?_, hR, hEnd, fun i hI => hMore i (hKept i hI)⟩
          rw [finish, hWaiting]
          dsimp only
          rw [← hWaiting, hFold]
          exact hFinish

/- Nothing is known at the start. -/
theorem going_start (nodes : Nodes) :
    (start nodes).Going nodes [] := by
  have hUnread {place : Place} {n : Node}
      (hN : nodes[place]? = some n) :
      (start nodes).standings[place]? = some .unread := by
    have hLt := (Array.getElem?_eq_some_iff.1 hN).1
    simp [start, hLt]
  constructor
  case table => rfl
  case steps => rfl
  case known =>
    intro place n hN
    exact ⟨.unread, hUnread hN, .unread n⟩
  case waiting =>
    intro w hW
    cases hW
  case parts =>
    intro place n hN hOpened
    cases (hUnread hN).symm.trans hOpened

/-
  From its root on a table of simple nodes is read as a whole:
  the root, and with a collection all of its parts.
-/
theorem exists_finished
    (hSimple : nodes.AreSimple)
    {root : Place}
    (hRoot : root < nodes.size) :
    ∃ p, (do
        let p ← (start nodes).touch root
        p.finish (nodes.size + 1)) = .ok p ∧
      p.Going nodes [] ∧ p.waiting = [] ∧ p.IsRead root := by
  rcases exists_touch hSimple (going_start nodes) hRoot with
    ⟨p, hTouch, hP, hReaches⟩
  rcases exists_finish hSimple hP
    (fun w _ => Nat.zero_le w)
    (show nodes.size < 0 + (nodes.size + 1) by omega) with
    ⟨q, hFinish, hQ, hEnd, hKept⟩
  refine ⟨q, ?_, hQ, hEnd,
    hKept root (hReaches.read root (List.mem_singleton.2 rfl))⟩
  rw [hTouch]
  exact hFinish

end Progress

end Yaml

end TypedClient
