import TypedClient.Yaml.Merge

/-
  This file shows what taking out merge keys does to a table of
  nodes: entries of mappings change, and an equals sign for a key
  becomes a text.  Every other node stays as it is.  No merge key
  comes in, so that it goes too deep only if the table that it
  starts from has a long chain of merge keys.

  Key definitions include:
    * `Yaml.Node.Becomes`
    * `Yaml.Nodes.Keeps`
    * `Yaml.Nodes.Stems`
    * `Yaml.Nodes.MergeChain`

  Key theorems include:
    * `Yaml.Nodes.merging_flatten`
-/

namespace TypedClient

namespace Yaml

------------------------------------------------------------
-- Nodes
------------------------------------------------------------

/-
  What a node may become: a mapping gets other entries, and an
  equals sign becomes a text.
-/
inductive Node.Becomes : Node → Node → Prop
  | same (n : Node) : Becomes n n
  | text (t : RawText) :
      Becomes (.scalar .value t) (.scalar .str t)
  | mapping (tag : Tag) (es fs : List (Place × Place)) :
      Becomes (.mapping tag es) (.mapping tag fs)

/- A node that became another may become one more. -/
theorem Node.Becomes.trans
    {l m n : Node}
    (hFirst : Becomes l m)
    (hNext : Becomes m n) : Becomes l n := by
  cases hFirst with
  | same => exact hNext
  | text t =>
      cases hNext with
      | same => exact .text t
  | mapping tag es fs =>
      cases hNext with
      | same => exact .mapping tag es fs
      | mapping _ _ gs => exact .mapping tag es gs

namespace Nodes

/- Each node of a later table is what one of `nodes` became. -/
def Keeps (nodes later : Nodes) : Prop :=
  ∀ (place : Place) (n : Node), later[place]? = some n →
    ∃ m : Node, nodes[place]? = some m ∧ m.Becomes n

variable {nodes later last : Nodes}

theorem Keeps.refl (nodes : Nodes) : Keeps nodes nodes :=
  fun _ n h => ⟨n, h, .same n⟩

theorem Keeps.trans
    (hFirst : Keeps nodes later)
    (hNext : Keeps later last) : Keeps nodes last := by
  intro place n h
  rcases hNext place n h with ⟨m, hM, hMn⟩
  rcases hFirst place m hM with ⟨l, hL, hLm⟩
  exact ⟨l, hL, hLm.trans hMn⟩

/- A table is kept if a node becomes another one. -/
theorem keeps_setIfInBounds
    {place : Place}
    {m n : Node}
    (h : nodes[place]? = some m)
    (hBecomes : m.Becomes n) :
    Keeps nodes (nodes.setIfInBounds place n) := by
  intro other k hK
  rw [Array.getElem?_setIfInBounds] at hK
  split at hK
  next hSame =>
    subst hSame
    split at hK
    · cases hK
      exact ⟨m, h, hBecomes⟩
    · cases hK
  next => exact ⟨k, hK, .same k⟩

theorem keeps_withEntries
    (place : Place)
    (es : List Entry) :
    Keeps nodes (nodes.withEntries place es) := by
  unfold withEntries
  split
  next tag fs h => exact keeps_setIfInBounds h (.mapping tag fs es)
  next => exact Keeps.refl nodes

theorem keeps_plainKey (e : Entry) :
    Keeps nodes (nodes.plainKey e) := by
  unfold plainKey
  split
  next t h => exact keeps_setIfInBounds h (.text t)
  next => exact Keeps.refl nodes

theorem keeps_foldl_plainKey (es : List Entry) :
    Keeps nodes (es.foldl plainKey nodes) := by
  induction es generalizing nodes with
  | nil => exact Keeps.refl nodes
  | cons e es ih => exact (keeps_plainKey e).trans ih

/- What becomes a merge key was one. -/
theorem Keeps.tagAt_merge
    (h : Keeps nodes later)
    {place : Place}
    (hTag : later.tagAt place = .merge) :
    nodes.tagAt place = .merge := by
  unfold tagAt at hTag ⊢
  cases hNode : later[place]? with
  | none =>
      rw [hNode] at hTag
      cases hTag
  | some n =>
      rcases h place n hNode with ⟨m, hM, hBecomes⟩
      rw [hNode] at hTag
      rw [hM]
      cases hBecomes with
      | same => exact hTag
      | text t => cases hTag
      | mapping tag es fs => exact hTag

/- What becomes a mapping was one. -/
theorem Keeps.isMapping
    (h : Keeps nodes later)
    {place : Place}
    (hMapping : later.isMapping place = true) :
    nodes.isMapping place = true := by
  unfold Nodes.isMapping at hMapping ⊢
  cases hNode : later[place]? with
  | none =>
      rw [hNode] at hMapping
      cases hMapping
  | some n =>
      rcases h place n hNode with ⟨m, hM, hBecomes⟩
      rw [hNode] at hMapping
      rw [hM]
      cases hBecomes with
      | same => exact hMapping
      | text t => cases hMapping
      | mapping tag es fs => rfl

/- Entries are those that were put into a mapping, or others. -/
theorem mem_entriesAt_withEntries
    {place other : Place}
    {es : List Entry}
    {e : Entry}
    (h : e ∈ (nodes.withEntries place es).entriesAt other) :
    (other = place ∧ e ∈ es) ∨ e ∈ nodes.entriesAt other := by
  unfold withEntries at h
  split at h
  next tag fs hNode =>
    unfold entriesAt at h
    rw [Array.getElem?_setIfInBounds] at h
    split at h
    next hPlace =>
      split at hPlace
      next hSame =>
        split at hPlace
        · cases hPlace
          exact Or.inl ⟨hSame.symm, h⟩
        · cases hPlace
      next =>
        right
        unfold entriesAt
        rw [hPlace]
        exact h
    next => cases h
  next => exact Or.inr h

/- A key that becomes a text leaves the entries of mappings. -/
theorem mem_entriesAt_plainKey
    {other : Place}
    {e f : Entry}
    (h : e ∈ (nodes.plainKey f).entriesAt other) :
    e ∈ nodes.entriesAt other := by
  unfold plainKey at h
  split at h
  next t hNode =>
    unfold entriesAt at h ⊢
    rw [Array.getElem?_setIfInBounds] at h
    split at h
    next hPlace =>
      split at hPlace
      next =>
        split at hPlace
        · cases hPlace
        · cases hPlace
      next =>
        rw [hPlace]
        exact h
    next => cases h
  next => exact h

theorem mem_entriesAt_foldl_plainKey
    {other : Place}
    {e : Entry}
    (es : List Entry)
    (h : e ∈ (es.foldl plainKey nodes).entriesAt other) :
    e ∈ nodes.entriesAt other := by
  induction es generalizing nodes with
  | nil => exact h
  | cons f fs ih => exact mem_entriesAt_plainKey (ih h)

------------------------------------------------------------
-- Chains of merge keys
------------------------------------------------------------

/- The places that the value of a merge key names. -/
def sourcesAt (nodes : Nodes) (value : Place) : List Place :=
  match nodes[value]? with
  | some (.sequence _ items) => items
  | _ => [value]

/- A mapping has a merge key that names a place. -/
def Merges (nodes : Nodes) (place source : Place) : Prop :=
  ∃ e ∈ nodes.entriesAt place,
    nodes.tagAt e.1 = .merge ∧ source ∈ nodes.sourcesAt e.2

/- A chain of a number of merge keys starts in a mapping. -/
inductive MergeChain (nodes : Nodes) : Nat → Place → Prop
  | zero (place : Place) : MergeChain nodes 0 place
  | succ {n : Nat} {place source : Place}
      (h : nodes.Merges place source)
      (hRest : MergeChain nodes n source) :
      MergeChain nodes (n + 1) place

/- A mapping that a later table names is one that was named. -/
theorem Keeps.mem_sourcesAt
    (h : Keeps nodes later)
    {value source : Place}
    (hMem : source ∈ later.sourcesAt value)
    (hMapping : later.isMapping source = true) :
    source ∈ nodes.sourcesAt value := by
  unfold sourcesAt at hMem ⊢
  cases hNode : later[value]? with
  | none =>
      rw [hNode] at hMem
      rw [List.mem_singleton.1 hMem, Nodes.isMapping, hNode]
        at hMapping
      cases hMapping
  | some n =>
      rcases h value n hNode with ⟨m, hM, hBecomes⟩
      rw [hNode] at hMem
      rw [hM]
      cases hBecomes with
      | same => exact hMem
      | text t => exact hMem
      | mapping tag es fs => exact hMem

------------------------------------------------------------
-- Tables without new merge keys
------------------------------------------------------------

/- A table that is kept, in which no merge key has come in. -/
structure Stems (nodes later : Nodes) : Prop where
  keeps : Keeps nodes later
  merges : ∀ place, ∀ e ∈ later.entriesAt place,
    later.tagAt e.1 = .merge → e ∈ nodes.entriesAt place

/- No entry has a merge key. -/
def NoMerges (nodes : Nodes) (es : List Entry) : Prop :=
  ∀ e ∈ es, nodes.tagAt e.1 ≠ .merge

theorem Stems.refl (nodes : Nodes) : Stems nodes nodes :=
  ⟨Keeps.refl nodes, fun _ _ h _ => h⟩

theorem NoMerges.of_keeps
    {es : List Entry}
    (h : NoMerges nodes es)
    (hKeeps : Keeps nodes later) : NoMerges later es :=
  fun e he hTag => h e he (hKeeps.tagAt_merge hTag)

theorem NoMerges.append
    {es fs : List Entry}
    (h : NoMerges nodes es)
    (hBehind : NoMerges nodes fs) : NoMerges nodes (es ++ fs) := by
  intro e he
  rcases List.mem_append.1 he with he | he
  · exact h e he
  · exact hBehind e he

/- Other entries bring in no merge key that was not there. -/
theorem Stems.withEntries
    (h : Stems nodes later)
    {place : Place}
    {es : List Entry}
    (hEs : ∀ e ∈ es, later.tagAt e.1 = .merge →
      e ∈ nodes.entriesAt place) :
    Stems nodes (later.withEntries place es) := by
  have hKeeps : Keeps later (later.withEntries place es) :=
    keeps_withEntries place es
  refine ⟨h.keeps.trans hKeeps, fun other e he hTag => ?_⟩
  have hMerge := hKeeps.tagAt_merge hTag
  rcases mem_entriesAt_withEntries he with ⟨rfl, hNew⟩ | he
  · exact hEs e hNew hMerge
  · exact h.merges other e he hMerge

theorem Stems.foldl_plainKey
    (h : Stems nodes later)
    (es : List Entry) : Stems nodes (es.foldl plainKey later) := by
  have hKeeps : Keeps later (es.foldl plainKey later) :=
    keeps_foldl_plainKey es
  refine ⟨h.keeps.trans hKeeps, fun place e he hTag => ?_⟩
  exact h.merges place e (mem_entriesAt_foldl_plainKey es he)
    (hKeeps.tagAt_merge hTag)

/- A merge key that is found is one that was there. -/
theorem splitMerge?_eq_some
    {es others : List Entry}
    {value : Place}
    (h : splitMerge? nodes es = some (value, others)) :
    (∃ e ∈ es, nodes.tagAt e.1 = .merge ∧ e.2 = value) ∧
      others ⊆ es := by
  induction es generalizing others with
  | nil => cases h
  | cons e es ih =>
      rw [splitMerge?] at h
      split at h
      next hTag =>
        cases h
        exact ⟨⟨e, List.mem_cons_self, hTag, rfl⟩,
          List.subset_cons_self e es⟩
      next =>
        rcases Option.map_eq_some_iff.1 h with
          ⟨⟨found, rest⟩, hFound, hBoth⟩
        cases hBoth
        rcases ih hFound with ⟨⟨f, hf, hMerge⟩, hRest⟩
        exact ⟨⟨f, List.mem_cons_of_mem e hf, hMerge⟩,
          List.cons_subset_cons e hRest⟩

/- If no merge key is found, there is none. -/
theorem noMerges_of_splitMerge?
    {es : List Entry}
    (h : splitMerge? nodes es = none) : NoMerges nodes es := by
  induction es with
  | nil => exact fun e he => by cases he
  | cons e es ih =>
      rw [splitMerge?] at h
      split at h
      next => cases h
      next hTag =>
        intro f hf
        rcases List.mem_cons.1 hf with rfl | hf
        · exact hTag
        · exact ih (Option.map_eq_none_iff.1 h) f hf

------------------------------------------------------------
-- Merge keys
------------------------------------------------------------

/-
  What comes of a step that takes merge keys out: it is done, or
  a merge key is in bad form, or it goes too deep.
-/
inductive Merging
    {α : Type}
    (good : α → Prop)
    (deep : Prop)
    (x : Except Document.Fault α) : Prop
  | done (a : α) (h : x = .ok a) (hGood : good a)
  | malformed (h : x = .error .malformed)
  | tooDeep (h : x = .error .tooDeep) (hDeep : deep)

/- Two steps in a row, where one goes as deep as the other. -/
theorem Merging.bind
    {α β : Type}
    {good : α → Prop}
    {fine : β → Prop}
    {deep : Prop}
    {x : Except Document.Fault α}
    {f : α → Except Document.Fault β}
    (hFirst : Merging good deep x)
    (hNext : ∀ a, good a → Merging fine deep (f a)) :
    Merging fine deep (x >>= f) := by
  cases hFirst with
  | done a h hGood =>
      subst h
      exact hNext a hGood
  | malformed h =>
      subst h
      exact .malformed rfl
  | tooDeep h hDeep =>
      subst h
      exact .tooDeep rfl hDeep

/- A later table behind a step from another one. -/
structure Advances (nodes before later : Nodes) : Prop where
  stems : Stems nodes later
  keeps : Keeps before later

/- What taking out merge keys with some fuel does to a table. -/
structure MergesStem (nodes : Nodes) (fuel : Nat) : Prop where
  flatten : ∀ before level place, Stems nodes before →
    Merging
      (fun later => Advances nodes before later ∧
        NoMerges later (later.entriesAt place))
      (MergeChain nodes level place)
      (flatten before fuel level place)
  takeMerges : ∀ before level place taken,
    Stems nodes before → NoMerges before taken →
      Merging
        (fun found => Advances nodes before found.1 ∧
          NoMerges found.1
            (found.2 ++ found.1.entriesAt place))
        (MergeChain nodes (level + 1) place)
        (takeMerges before fuel level place taken)
  takeItems : ∀ before level place items, Stems nodes before →
    (∀ i ∈ items, before.isMapping i = true →
      nodes.Merges place i) →
      Merging
        (fun found => Advances nodes before found.1 ∧
          NoMerges found.1 found.2)
        (MergeChain nodes (level + 1) place)
        (takeItems before fuel level items)

section

variable {fuel : Nat}
variable {before : Nodes}

/- A mapping is opened if its merge keys are taken out. -/
theorem merging_flatten_succ
    (ih : MergesStem nodes fuel)
    (level : Nat)
    (place : Place)
    (h : Stems nodes before) :
    Merging
      (fun later => Advances nodes before later ∧
        NoMerges later (later.entriesAt place))
      (MergeChain nodes level place)
      (flatten before (fuel + 1) level place) := by
  unfold Nodes.flatten
  cases level with
  | zero => exact .tooDeep rfl (.zero place)
  | succ level =>
      refine (ih.takeMerges before level place [] h
        fun e he => by cases he).bind ?_
      rintro ⟨later, taken⟩ ⟨hLater, hNone⟩
      -- the new entries are those taken and those left
      let own := later.entriesAt place
      let plain := own.foldl plainKey later
      have hPlain : Keeps later plain :=
        keeps_foldl_plainKey own
      have hEntries : NoMerges plain (taken ++ own) :=
        hNone.of_keeps hPlain
      have hKeeps : Keeps plain
          (plain.withEntries place (taken ++ own)) :=
        keeps_withEntries place (taken ++ own)
      refine .done _ rfl ⟨⟨?_, ?_⟩, ?_⟩
      · exact (hLater.stems.foldl_plainKey own).withEntries
          fun e he hTag => absurd hTag (hEntries e he)
      · exact hLater.keeps.trans (hPlain.trans hKeeps)
      · intro e he hTag
        have hMerge := hKeeps.tagAt_merge hTag
        rcases mem_entriesAt_withEntries he with ⟨-, he⟩ | he
        · exact hEntries e he hMerge
        · exact hEntries e (List.mem_append_right taken
            (mem_entriesAt_foldl_plainKey own he)) hMerge

/- The merge keys of a mapping are taken out one by one. -/
theorem merging_takeMerges_succ
    (ih : MergesStem nodes fuel)
    (level : Nat)
    (place : Place)
    {taken : List Entry}
    (h : Stems nodes before)
    (hTaken : NoMerges before taken) :
    Merging
      (fun found => Advances nodes before found.1 ∧
        NoMerges found.1 (found.2 ++ found.1.entriesAt place))
      (MergeChain nodes (level + 1) place)
      (takeMerges before (fuel + 1) level place taken) := by
  rw [Nodes.takeMerges]
  split
  next hNone =>
    exact .done _ rfl ⟨⟨h, Keeps.refl before⟩,
      hTaken.append (noMerges_of_splitMerge? hNone)⟩
  next value others hSome =>
    rcases splitMerge?_eq_some hSome with
      ⟨⟨e, he, hTag, rfl⟩, hOthers⟩
    -- the merge key is dropped before what it names is opened
    let dropped := before.withEntries place others
    have hDropped : Keeps before dropped :=
      keeps_withEntries place others
    have hStems : Stems nodes dropped :=
      h.withEntries fun f hf hMerge =>
        h.merges place f (hOthers hf) hMerge
    have hSources : ∀ i ∈ dropped.sourcesAt e.2,
        dropped.isMapping i = true → nodes.Merges place i :=
      fun i hi hMapping => ⟨e, h.merges place e he hTag,
        h.keeps.tagAt_merge hTag,
        hStems.keeps.mem_sourcesAt hi hMapping⟩
    have hItems := ih.takeItems dropped level place
      (dropped.sourcesAt e.2) hStems hSources
    have hRest : ∀ found : Nodes × List Entry,
        Advances nodes dropped found.1 ∧
            NoMerges found.1 found.2 →
          Merging
            (fun last => Advances nodes before last.1 ∧
              NoMerges last.1 (last.2 ++ last.1.entriesAt place))
            (MergeChain nodes (level + 1) place)
            (found.1.takeMerges fuel level place
              (taken ++ found.2)) := by
      rintro ⟨later, more⟩ ⟨hLater, hMore⟩
      have hKeeps := hDropped.trans hLater.keeps
      have hAgain := ih.takeMerges later level place
        (taken ++ more) hLater.stems
        ((hTaken.of_keeps hKeeps).append hMore)
      cases hAgain with
      | done last hRun hLast =>
          exact .done last hRun ⟨⟨hLast.1.stems,
            hKeeps.trans hLast.1.keeps⟩, hLast.2⟩
      | malformed hRun => exact .malformed hRun
      | tooDeep hRun hDeep => exact .tooDeep hRun hDeep
    unfold sourcesAt at hItems
    dsimp only
    split
    next tag items hNode =>
      rw [hNode] at hItems
      exact hItems.bind hRest
    next hOther =>
      split at hItems
      next tag items hNode => exact (hOther tag items hNode).elim
      next => exact hItems.bind hRest

/- The mappings that a merge key names are opened one by one. -/
theorem merging_takeItems_succ
    (ih : MergesStem nodes fuel)
    (level : Nat)
    {place : Place}
    {items : List Place}
    (h : Stems nodes before)
    (hItems : ∀ i ∈ items, before.isMapping i = true →
      nodes.Merges place i) :
    Merging
      (fun found => Advances nodes before found.1 ∧
        NoMerges found.1 found.2)
      (MergeChain nodes (level + 1) place)
      (takeItems before (fuel + 1) level items) := by
  unfold Nodes.takeItems
  cases items with
  | nil =>
      exact .done _ rfl ⟨⟨h, Keeps.refl before⟩,
        fun e he => by cases he⟩
  | cons item items =>
      dsimp only
      by_cases hMapping : before.isMapping item = true
      · have hMerges := hItems item List.mem_cons_self hMapping
        have hFirst : Merging
            (fun later => Advances nodes before later ∧
              NoMerges later (later.entriesAt item))
            (MergeChain nodes (level + 1) place)
            (before.flatten fuel level item) := by
          cases ih.flatten before level item h with
          | done later hRun hLater => exact .done later hRun hLater
          | malformed hRun => exact .malformed hRun
          | tooDeep hRun hDeep =>
              exact .tooDeep hRun (.succ hMerges hDeep)
        simp only [hMapping, Bool.not_true, Bool.false_eq_true,
          if_false]
        refine hFirst.bind ?_
        rintro later ⟨hLater, hNone⟩
        refine (ih.takeItems later level place items hLater.stems
          fun i hi hLaterMapping =>
            hItems i (List.mem_cons_of_mem item hi)
              (hLater.keeps.isMapping hLaterMapping)).bind ?_
        rintro ⟨last, others⟩ ⟨hLast, hOthers⟩
        exact .done _ rfl ⟨⟨hLast.stems,
          hLater.keeps.trans hLast.keeps⟩,
          hOthers.append (hNone.of_keeps hLast.keeps)⟩
      · simp only [hMapping]
        exact .malformed rfl

end

/- Taking out merge keys brings no merge key in. -/
theorem mergesStem (nodes : Nodes) (fuel : Nat) :
    MergesStem nodes fuel := by
  induction fuel with
  | zero =>
      constructor
      case flatten =>
        intro before level place _
        unfold Nodes.flatten
        exact .malformed rfl
      case takeMerges =>
        intro before level place taken _ _
        unfold Nodes.takeMerges
        exact .malformed rfl
      case takeItems =>
        intro before level place items _ _
        unfold Nodes.takeItems
        exact .malformed rfl
  | succ fuel ih =>
      exact
        { flatten := fun _ level place =>
            merging_flatten_succ ih level place
          takeMerges := fun _ level place _ =>
            merging_takeMerges_succ ih level place
          takeItems := fun _ level _ _ =>
            merging_takeItems_succ ih level }

/-
  Opening a mapping brings no merge key in, and goes too deep only
  if a chain of as many merge keys starts there as levels are
  left.
-/
theorem merging_flatten
    (h : Stems nodes later)
    (fuel level : Nat)
    (place : Place) :
    Merging (Stems nodes) (MergeChain nodes level place)
      (later.flatten fuel level place) := by
  cases (mergesStem nodes fuel).flatten later level place h with
  | done last hRun hLast => exact .done last hRun hLast.1.stems
  | malformed hRun => exact .malformed hRun
  | tooDeep hRun hDeep => exact .tooDeep hRun hDeep

end Nodes

end Yaml

end TypedClient
