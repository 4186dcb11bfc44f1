import TypedClient.Proofs.Yaml.Form

/-
  This file shows that building a graph of nodes fails in two
  ways only: the tokens are in no order that is allowed, or the
  collections are nested too deeply.

  Key definitions include:
    * `Yaml.Graph.ReadersOnlyForm`

  Key theorems include:
    * `Yaml.Graph.readersOnlyForm`
    * `Yaml.Graph.fault_of_ofTokens`
-/

namespace TypedClient

namespace Yaml

namespace Graph

------------------------------------------------------------
-- Content
------------------------------------------------------------

/- The readers of content with some fuel have faults of form. -/
structure ReadersOnlyForm (fuel : Nat) : Prop where
  node : ∀ depth inBlock belowKey,
    OnlyForm (nodeFrom fuel depth inBlock belowKey)
  collection : ∀ depth form tag,
    OnlyForm (collectionFrom fuel depth form tag)
  orAbsent : ∀ depth inBlock belowKey stops,
    OnlyForm (nodeOrAbsent fuel depth inBlock belowKey stops)
  blockItems : ∀ depth read,
    OnlyForm (blockItems fuel depth read)
  plainItems : ∀ depth read,
    OnlyForm (plainItems fuel depth read)
  blockEntries : ∀ depth read,
    OnlyForm (blockEntries fuel depth read)
  blockValue : ∀ depth, OnlyForm (blockValue fuel depth)
  flowItems : ∀ depth isFirst read,
    OnlyForm (flowItems fuel depth isFirst read)
  flowEntries : ∀ depth isFirst read,
    OnlyForm (flowEntries fuel depth isFirst read)
  flowValue : ∀ depth close,
    OnlyForm (flowValue fuel depth close)

/- Without fuel, all of them stop at once. -/
theorem readersOnlyForm_zero : ReadersOnlyForm 0 where
  node _ _ _ := by rw [nodeFrom]; exact OnlyForm.malformed
  collection _ _ _ := by
    rw [collectionFrom]; exact OnlyForm.malformed
  orAbsent _ _ _ _ := by
    rw [nodeOrAbsent]; exact OnlyForm.malformed
  blockItems _ _ := by
    rw [Graph.blockItems]; exact OnlyForm.malformed
  plainItems _ _ := by
    rw [Graph.plainItems]; exact OnlyForm.malformed
  blockEntries _ _ := by
    rw [Graph.blockEntries]; exact OnlyForm.malformed
  blockValue _ := by
    rw [Graph.blockValue]; exact OnlyForm.malformed
  flowItems _ _ _ := by
    rw [Graph.flowItems]; exact OnlyForm.malformed
  flowEntries _ _ _ := by
    rw [Graph.flowEntries]; exact OnlyForm.malformed
  flowValue _ _ := by
    rw [Graph.flowValue]; exact OnlyForm.malformed

variable {fuel : Nat}

/- A node has faults of form if what is inside it has. -/
theorem onlyForm_nodeFrom
    (ih : ReadersOnlyForm fuel)
    (depth : Nat)
    (inBlock belowKey : Bool) :
    OnlyForm (nodeFrom (fuel + 1) depth inBlock belowKey) := by
  unfold nodeFrom
  cases depth with
  | zero => exact OnlyForm.tooDeep
  | succ depth =>
      refine onlyForm_peek.bind fun t => ?_
      split
      · exact onlyForm_skip.bind fun _ => onlyForm_resolve _
      · refine onlyForm_takeProperties.bind fun p => ?_
        refine (onlyForm_checkAnchor _).bind fun _ => ?_
        refine (onlyForm_takeForm _ _).bind fun form => ?_
        cases form with
        | some form =>
            refine (onlyForm_allot _).bind fun place => ?_
            refine (onlyForm_define _ _).bind fun _ => ?_
            refine (ih.collection _ _ _).bind fun n => ?_
            exact (onlyForm_settle _ _).bind fun _ =>
              OnlyForm.pure _
        | none =>
            refine (onlyForm_scalarFrom p).bind fun n => ?_
            refine (onlyForm_add n).bind fun place => ?_
            exact (onlyForm_define _ _).bind fun _ =>
              OnlyForm.pure _

/- So has a collection. -/
theorem onlyForm_collectionFrom
    (ih : ReadersOnlyForm fuel)
    (depth : Nat)
    (form : Form)
    (tag : Option (List Char)) :
    OnlyForm (collectionFrom (fuel + 1) depth form tag) := by
  unfold collectionFrom
  cases form with
  | blockSequence =>
      exact (ih.blockItems _ _).bind fun _ => OnlyForm.pure _
  | plainSequence =>
      exact (ih.plainItems _ _).bind fun _ => OnlyForm.pure _
  | flowSequence =>
      exact (ih.flowItems _ _ _).bind fun _ => OnlyForm.pure _
  | blockMapping =>
      exact (ih.blockEntries _ _).bind fun _ => OnlyForm.pure _
  | flowMapping =>
      exact (ih.flowEntries _ _ _).bind fun _ => OnlyForm.pure _

/- So have the parts of a flow collection, up to their end. -/
theorem onlyForm_separated
    {α : Type}
    {close : Token}
    {isFirst : Bool}
    {done : Building α}
    {go : Unit → Building α}
    (hDone : OnlyForm done)
    (hGo : ∀ a, OnlyForm (go a)) :
    OnlyForm (nextIn [close] >>= fun ends =>
      if ends = true then done
      else if (!isFirst) = true then expect .flowEntry >>= go
      else go ()) := by
  refine (onlyForm_nextIn _).bind fun ends => ?_
  split
  · exact hDone
  · exact OnlyForm.onCondition (onlyForm_expect _) hGo

/- So have the items of a flow sequence. -/
theorem onlyForm_flowItems
    (ih : ReadersOnlyForm fuel)
    (depth : Nat)
    (isFirst : Bool)
    (read : List Place) :
    OnlyForm (flowItems (fuel + 1) depth isFirst read) := by
  rw [flowItems]
  refine onlyForm_separated
    (onlyForm_skip.bind fun _ => OnlyForm.pure _) fun _ => ?_
  refine (onlyForm_nextIn _).bind fun isKey => ?_
  split
  · refine onlyForm_skip.bind fun _ => ?_
    refine (ih.orAbsent _ _ _ _).bind fun k => ?_
    refine (ih.flowValue _ _).bind fun v => ?_
    refine (onlyForm_add _).bind fun pair => ?_
    exact ih.flowItems _ _ _
  · refine (onlyForm_nextIn _).bind fun isEnd => ?_
    split
    · exact onlyForm_skip.bind fun _ => OnlyForm.pure _
    · exact (ih.node _ _ _).bind fun _ => ih.flowItems _ _ _

/- So have the entries of a flow mapping. -/
theorem onlyForm_flowEntries
    (ih : ReadersOnlyForm fuel)
    (depth : Nat)
    (isFirst : Bool)
    (read : List (Place × Place)) :
    OnlyForm (flowEntries (fuel + 1) depth isFirst read) := by
  rw [flowEntries]
  refine onlyForm_separated
    (onlyForm_skip.bind fun _ => OnlyForm.pure _) fun _ => ?_
  refine (onlyForm_nextIn _).bind fun isKey => ?_
  split
  · refine onlyForm_skip.bind fun _ => ?_
    refine (ih.orAbsent _ _ _ _).bind fun k => ?_
    refine (ih.flowValue _ _).bind fun v => ?_
    exact ih.flowEntries _ _ _
  · refine (onlyForm_nextIn _).bind fun isEnd => ?_
    split
    · exact onlyForm_skip.bind fun _ => OnlyForm.pure _
    · refine (ih.node _ _ _).bind fun k => ?_
      exact onlyForm_absent.bind fun _ => ih.flowEntries _ _ _

/- All readers have faults of form only. -/
theorem readersOnlyForm (fuel : Nat) : ReadersOnlyForm fuel := by
  induction fuel with
  | zero => exact readersOnlyForm_zero
  | succ fuel ih =>
      constructor
      case node => exact onlyForm_nodeFrom ih
      case collection => exact onlyForm_collectionFrom ih
      case flowItems => exact onlyForm_flowItems ih
      case flowEntries => exact onlyForm_flowEntries ih
      case orAbsent =>
        intro depth inBlock belowKey stops
        rw [nodeOrAbsent]
        refine (onlyForm_nextIn _).bind fun isStop => ?_
        split
        · exact onlyForm_absent
        · exact ih.node _ _ _
      case blockItems =>
        intro depth read
        rw [blockItems]
        refine (onlyForm_nextIn _).bind fun isEntry => ?_
        split
        · refine onlyForm_skip.bind fun _ => ?_
          exact (ih.orAbsent _ _ _ _).bind fun _ =>
            ih.blockItems _ _
        · exact (onlyForm_expect _).bind fun _ =>
            OnlyForm.pure _
      case plainItems =>
        intro depth read
        rw [plainItems]
        refine (onlyForm_nextIn _).bind fun isEntry => ?_
        split
        · refine onlyForm_skip.bind fun _ => ?_
          exact (ih.orAbsent _ _ _ _).bind fun _ =>
            ih.plainItems _ _
        · exact OnlyForm.pure _
      case blockEntries =>
        intro depth read
        rw [blockEntries]
        refine (onlyForm_nextIn _).bind fun isKey => ?_
        split
        · refine onlyForm_skip.bind fun _ => ?_
          refine (ih.orAbsent _ _ _ _).bind fun k => ?_
          exact (ih.blockValue _).bind fun _ =>
            ih.blockEntries _ _
        · exact (onlyForm_expect _).bind fun _ =>
            OnlyForm.pure _
      case blockValue =>
        intro depth
        rw [blockValue]
        refine (onlyForm_nextIn _).bind fun isValue => ?_
        split
        · exact onlyForm_skip.bind fun _ => ih.orAbsent _ _ _ _
        · exact onlyForm_absent
      case flowValue =>
        intro depth close
        rw [flowValue]
        refine (onlyForm_nextIn _).bind fun isValue => ?_
        split
        · exact onlyForm_skip.bind fun _ => ih.orAbsent _ _ _ _
        · exact onlyForm_absent

------------------------------------------------------------
-- Documents
------------------------------------------------------------

/- Directives may come first; each may come once. -/
theorem onlyForm_directives
    (fuel : Nat)
    (seen : Bool)
    (handles : List (List Char × List Char)) :
    OnlyForm (directives seen handles fuel) := by
  induction fuel generalizing seen handles with
  | zero => exact OnlyForm.malformed
  | succ fuel ih =>
      rw [directives]
      refine onlyForm_peek.bind fun t => ?_
      split
      · refine OnlyForm.onCondition OnlyForm.malformed fun _ => ?_
        exact onlyForm_skip.bind fun _ => ih _ _
      · refine OnlyForm.onCondition OnlyForm.malformed fun _ => ?_
        exact onlyForm_skip.bind fun _ => ih _ _
      · exact onlyForm_skip.bind fun _ => ih _ _
      · exact OnlyForm.pure _

/- Ends of documents may come next. -/
theorem onlyForm_skipEnds (fuel : Nat) :
    OnlyForm (skipEnds fuel) := by
  induction fuel with
  | zero => exact OnlyForm.pure ()
  | succ fuel ih =>
      rw [skipEnds]
      refine (onlyForm_nextIn _).bind fun isEnd => ?_
      split
      · exact onlyForm_skip.bind fun _ => ih
      · exact OnlyForm.pure _

theorem onlyForm_atDirective : OnlyForm atDirective := by
  refine onlyForm_peek.bind fun t => ?_
  split
  · exact OnlyForm.pure _
  · exact OnlyForm.pure _
  · exact OnlyForm.pure _
  · exact OnlyForm.pure _

/- A document has a start mark. -/
theorem onlyForm_markedRoot (fuel : Nat) :
    OnlyForm (markedRoot fuel) := by
  refine (onlyForm_directives _ _ _).bind fun handles => ?_
  refine (OnlyForm.modify _).bind fun _ => ?_
  refine (onlyForm_expect _).bind fun _ => ?_
  refine (onlyForm_nextIn _).bind fun isEmpty => ?_
  refine onlyForm_atDirective.bind fun isDirective => ?_
  split
  · exact onlyForm_absent
  · exact (readersOnlyForm fuel).node _ _ _

theorem onlyForm_rootFrom (fuel : Nat) :
    OnlyForm (rootFrom fuel) := by
  refine (onlyForm_nextIn _).bind fun isStart => ?_
  refine onlyForm_atDirective.bind fun isDirective => ?_
  split
  · exact onlyForm_markedRoot fuel
  · exact (readersOnlyForm fuel).node _ _ _

theorem onlyForm_graphFrom (fuel : Nat) :
    OnlyForm (graphFrom fuel) := by
  refine (onlyForm_nextIn _).bind fun isEnd => ?_
  split
  · exact OnlyForm.pure _
  · refine (onlyForm_rootFrom fuel).bind fun root => ?_
    refine (onlyForm_skipEnds fuel).bind fun _ => ?_
    refine (onlyForm_expect _).bind fun _ => ?_
    exact OnlyForm.get.bind fun _ => OnlyForm.pure _

------------------------------------------------------------
-- Streams
------------------------------------------------------------

/- A graph fails at the fault of its tokens, or in its form. -/
theorem fault_of_ofTokens
    {tokens : List Token}
    {fault : Option Document.Fault}
    {e : Document.Fault}
    (h : ofTokens tokens fault = .error e) :
    fault = some e ∨ IsForm e := by
  simp only [ofTokens] at h
  split at h
  next => cases h
  next =>
    cases h
    exact Or.inr (Or.inr rfl)
  next =>
    cases h
    exact Or.inl rfl
  next hRun =>
    cases h
    exact Or.inr (onlyForm_graphFrom _ _ _ hRun)

end Graph

end Yaml

end TypedClient
