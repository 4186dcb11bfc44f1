import TypedClient.Proofs.Yaml.Layout

/-
  This file shows that the tokens of a JSON text build the table
  of nodes that its tree says, if the text is not nested too
  deeply.

  Key definitions include:
    * `Yaml.Graph.Stream.after`

  Key theorems include:
    * `Yaml.Graph.buildsNode`
    * `Yaml.Graph.ofTokens_source`
-/

namespace TypedClient

namespace Yaml

namespace Graph

open Json (Source Items Members Key)

------------------------------------------------------------
-- Steps of building
------------------------------------------------------------

/-
  A stream with other tokens left, behind nodes that were added
  to its table and places that were completed.
-/
def Stream.after
    (s : Stream)
    (ts : List Token)
    (ns : List Node)
    (places : List Place) : Stream :=
  ⟨ts, s.anchors, s.handles, s.nodes ++ ns.toArray,
    places.reverse ++ s.complete⟩

variable {s : Stream}
variable {t : Token}
variable {ts : List Token}

theorem Stream.after_after
    (us : List Token)
    (ns ms : List Node)
    (ps qs : List Place) :
    (s.after ts ns ps).after us ms qs =
      s.after us (ns ++ ms) (ps ++ qs) := by
  simp [Stream.after]

theorem Stream.size_after
    (ns : List Node)
    (ps : List Place) :
    (s.after ts ns ps).nodes.size = s.nodes.size + ns.length := by
  simp [Stream.after]

/- A step that is made is followed by the next one. -/
theorem bind_of_ok
    {α β : Type}
    {x : Building α}
    {f : α → Building β}
    {a : α}
    {r : Stream}
    (h : x s = .ok (a, r)) : (x >>= f) s = f a r := by
  change (x s >>= fun p => f p.1 p.2) = _
  rw [h]
  rfl

theorem peek_of_tokens
    (h : s.tokens = t :: ts) : peek s = .ok (some t, s) := by
  change Except.ok (s.tokens.head?, s) = _
  rw [h]
  rfl

theorem skip_of_tokens
    (h : s.tokens = t :: ts) :
    skip s = .ok ((), s.after ts [] []) := by
  change Except.ok ((), { s with tokens := s.tokens.tail }) = _
  rw [h]
  simp [Stream.after]

theorem nextIn_of_tokens
    (us : List Token)
    (h : s.tokens = t :: ts) :
    nextIn us s = .ok (decide (t ∈ us), s) := by
  unfold nextIn
  rw [bind_of_ok (peek_of_tokens h)]
  rfl

theorem expect_of_tokens
    (h : s.tokens = t :: ts) :
    expect t s = .ok ((), s.after ts [] []) := by
  unfold expect
  rw [bind_of_ok (nextIn_of_tokens [t] h),
    if_pos (decide_eq_true (List.mem_singleton.2 rfl))]
  exact skip_of_tokens h

/- A node that is added is complete. -/
theorem add_run (n : Node) :
    add n s = .ok (s.nodes.size,
      s.after s.tokens [n] [s.nodes.size]) := by
  change Except.ok (s.nodes.size, { s with
    nodes := (s.nodes.push n).setIfInBounds s.nodes.size n
    complete := s.nodes.size :: s.complete }) = _
  have hPush : (s.nodes.push n).setIfInBounds s.nodes.size n =
      s.nodes.push n := by
    rw [Array.push_eq_append, Array.setIfInBounds_append_right
      (Nat.le_refl _)]
    simp
  rw [hPush]
  simp [Stream.after]

theorem allot_run (n : Node) :
    allot n s = .ok (s.nodes.size, s.after s.tokens [n] []) := by
  change Except.ok (s.nodes.size, { s with
    nodes := s.nodes.push n }) = _
  simp [Stream.after]

/- A node that was allotted a place is completed on it. -/
theorem settle_run
    (m n : Node)
    (ns : List Node)
    (places : List Place) :
    settle s.nodes.size n (s.after ts (m :: ns) places) =
      .ok ((), s.after ts (n :: ns) (places ++ [s.nodes.size])) := by
  have hNodes : (s.nodes ++ (m :: ns).toArray).setIfInBounds
      s.nodes.size n = s.nodes ++ (n :: ns).toArray := by
    simp
  change Except.ok ((), { s.after ts (m :: ns) places with
    nodes := (s.nodes ++ (m :: ns).toArray).setIfInBounds
      s.nodes.size n
    complete := s.nodes.size :: (places.reverse ++ s.complete) }) =
      _
  rw [hNodes]
  simp [Stream.after]

------------------------------------------------------------
-- Scalars and collections
------------------------------------------------------------

/- The tokens that a value starts with. -/
def StartsNode (t : Token) : Prop :=
  (∃ isPlain text, t = .scalar isPlain text) ∨
    t = .flowSequenceStart ∨ t = .flowMappingStart

/- A value has no properties. -/
theorem takeProperties_of_tokens
    (hStarts : StartsNode t)
    (h : s.tokens = t :: ts) :
    takeProperties s = .ok (⟨none, none⟩, s) := by
  have hAnchor : takeAnchor s = .ok (none, s) := by
    unfold takeAnchor
    rw [bind_of_ok (peek_of_tokens h)]
    rcases hStarts with ⟨p, text, rfl⟩ | rfl | rfl
    all_goals rfl
  have hTag : takeTag s = .ok (none, s) := by
    unfold takeTag
    rw [bind_of_ok (peek_of_tokens h)]
    rcases hStarts with ⟨p, text, rfl⟩ | rfl | rfl
    all_goals rfl
  unfold takeProperties
  rw [bind_of_ok hAnchor]
  dsimp only
  rw [bind_of_ok hTag]
  rfl

theorem checkAnchor_none (s : Stream) :
    checkAnchor none s = .ok ((), s) :=
  rfl

theorem define_none (place : Place) (s : Stream) :
    define none place s = .ok ((), s) :=
  rfl

/- A scalar is a node of its own. -/
theorem nodeFrom_scalar
    {isPlain : Bool}
    {text : RawText}
    (h : s.tokens = .scalar isPlain text :: ts)
    {fuel depth : Nat}
    (hFuel : 0 < fuel)
    (hDepth : 0 < depth)
    (inBlock : Bool) :
    nodeFrom fuel depth inBlock false s =
      .ok (s.nodes.size, s.after ts
        [.scalar (scalarTag isPlain text none) text]
        [s.nodes.size]) := by
  rcases Nat.exists_eq_succ_of_ne_zero (Nat.ne_of_gt hFuel) with
    ⟨fuel, rfl⟩
  rcases Nat.exists_eq_succ_of_ne_zero (Nat.ne_of_gt hDepth) with
    ⟨depth, rfl⟩
  have hForm : takeForm inBlock false s = .ok (none, s) := by
    unfold takeForm
    rw [bind_of_ok (peek_of_tokens h)]
    rfl
  have hScalar : scalarFrom ⟨none, none⟩ s =
      .ok (.scalar (scalarTag isPlain text none) text,
        s.after ts [] []) := by
    unfold scalarFrom
    rw [bind_of_ok (peek_of_tokens h)]
    dsimp only
    rw [bind_of_ok (skip_of_tokens h)]
    rfl
  rw [nodeFrom, bind_of_ok (peek_of_tokens h)]
  dsimp only
  rw [bind_of_ok (takeProperties_of_tokens
    (Or.inl ⟨_, _, rfl⟩) h)]
  rw [bind_of_ok (checkAnchor_none s), bind_of_ok hForm]
  dsimp only
  rw [bind_of_ok hScalar, bind_of_ok (add_run _),
    bind_of_ok (define_none _ _), Stream.after_after,
    Stream.size_after]
  rfl

/- The forms of collections that JSON has. -/
def IsFlow (t : Token) (form : Form) : Prop :=
  t = .flowSequenceStart ∧ form = .flowSequence ∨
    t = .flowMappingStart ∧ form = .flowMapping

/- A collection is completed behind its parts. -/
theorem nodeFrom_collection
    {form : Form}
    (hFlow : IsFlow t form)
    (h : s.tokens = t :: ts)
    {fuel depth : Nat}
    {inBlock : Bool}
    {n : Node}
    {us : List Token}
    {ns : List Node}
    {places : List Place}
    (hParts : collectionFrom fuel depth form none
      (s.after ts [default] []) =
        .ok (n, s.after us (default :: ns) places)) :
    nodeFrom (fuel + 1) (depth + 1) inBlock false s =
      .ok (s.nodes.size,
        s.after us (n :: ns) (places ++ [s.nodes.size])) := by
  have hStarts : StartsNode t := by
    rcases hFlow with ⟨rfl, -⟩ | ⟨rfl, -⟩
    · exact Or.inr (Or.inl rfl)
    · exact Or.inr (Or.inr rfl)
  have hForm : takeForm inBlock false s =
      .ok (some form, s.after ts [] []) := by
    unfold takeForm
    rw [bind_of_ok (peek_of_tokens h)]
    rcases hFlow with ⟨rfl, rfl⟩ | ⟨rfl, rfl⟩
    · dsimp only
      rw [bind_of_ok (skip_of_tokens h)]
      rfl
    · dsimp only
      rw [bind_of_ok (skip_of_tokens h)]
      rfl
  have hAllot : allot default (s.after ts [] []) =
      .ok (s.nodes.size, s.after ts [default] []) := by
    rw [allot_run, Stream.size_after, Stream.after_after]
    rfl
  rcases hFlow with ⟨rfl, rfl⟩ | ⟨rfl, rfl⟩
  all_goals
    rw [nodeFrom, bind_of_ok (peek_of_tokens h)]
    dsimp only
    rw [bind_of_ok (takeProperties_of_tokens hStarts h)]
    rw [bind_of_ok (checkAnchor_none s), bind_of_ok hForm]
    dsimp only
    rw [bind_of_ok hAllot, bind_of_ok (define_none _ _),
      bind_of_ok hParts, bind_of_ok (settle_run _ _ _ _)]
    rfl

------------------------------------------------------------
-- Parts of collections
------------------------------------------------------------

theorem Stream.after_self (s : Stream) :
    s.after s.tokens [] [] = s := by
  simp [Stream.after]

theorem StartsNode.not_mem
    (h : StartsNode t) :
    t ∉ [.flowSequenceEnd, .flowMappingEnd, .flowEntry, .key,
      .value, .documentStart, .streamEnd] := by
  rcases h with ⟨p, text, rfl⟩ | rfl | rfl
  · simp
  · decide
  · decide

/- The comma in front of a part that is not the first one. -/
def separator (isFirst : Bool) : List Token :=
  if isFirst then [] else [.flowEntry]

/-
  A part of a collection is looked for behind its comma, where
  the collection does not end.
-/
theorem afterSeparator
    {α : Type}
    {isFirst : Bool}
    {close : Token}
    {us : List Token}
    (hStarts : t ≠ close)
    (hClose : close ≠ .flowEntry)
    (h : s.tokens = separator isFirst ++ t :: us)
    (done : Building α)
    (go : Unit → Building α) :
    (nextIn [close] >>= fun ends =>
      if ends = true then done
      else if (!isFirst) = true then expect .flowEntry >>= go
      else go ()) s = go () (s.after (t :: us) [] []) := by
  cases isFirst with
  | true =>
      have hTokens : s.tokens = t :: us := h
      have hNot : ¬ decide (t ∈ [close]) = true := by
        simpa using hStarts
      rw [bind_of_ok (nextIn_of_tokens _ hTokens), if_neg hNot,
        ← hTokens, Stream.after_self]
      rfl
  | false =>
      have hTokens : s.tokens = .flowEntry :: t :: us := h
      have hNot : ¬ decide (Token.flowEntry ∈ [close]) = true := by
        simpa using hClose.symm
      rw [bind_of_ok (nextIn_of_tokens _ hTokens), if_neg hNot]
      change (expect .flowEntry >>= go) s = _
      rw [bind_of_ok (expect_of_tokens hTokens)]

------------------------------------------------------------
-- Items
------------------------------------------------------------

/- The items of a sequence end at its bracket. -/
theorem flowItems_end
    (h : s.tokens = .flowSequenceEnd :: ts)
    (fuel depth : Nat)
    (isFirst : Bool)
    (read : List Place) :
    flowItems (fuel + 1) depth isFirst read s =
      .ok (read.reverse, s.after ts [] []) := by
  rw [flowItems, bind_of_ok (nextIn_of_tokens _ h),
    if_pos (by simp), bind_of_ok (skip_of_tokens h)]
  rfl

/- An item is read, and then the items behind it. -/
theorem flowItems_item
    {isFirst : Bool}
    {us : List Token}
    (hStarts : ∃ t vs, us = t :: vs ∧ StartsNode t)
    (h : s.tokens = separator isFirst ++ us)
    {fuel depth : Nat}
    {place : Place}
    {r : Stream}
    (hItem : nodeFrom fuel depth false false (s.after us [] []) =
      .ok (place, r))
    (read : List Place) :
    flowItems (fuel + 1) depth isFirst read s =
      flowItems fuel depth false (place :: read) r := by
  rcases hStarts with ⟨t, us, rfl, hStarts⟩
  have hNot := hStarts.not_mem
  simp only [List.mem_cons, List.not_mem_nil, or_false, not_or]
    at hNot
  have hTokens : (s.after (t :: us) [] []).tokens = t :: us := rfl
  rw [flowItems]
  refine (afterSeparator hNot.1 (by decide) h _ _).trans ?_
  dsimp only
  rw [bind_of_ok (nextIn_of_tokens _ hTokens),
    if_neg (by simp [hNot]),
    bind_of_ok (nextIn_of_tokens _ hTokens),
    if_neg (by simp [hNot]), bind_of_ok hItem]

------------------------------------------------------------
-- Entries
------------------------------------------------------------

/- The entries of a mapping end at its brace. -/
theorem flowEntries_end
    (h : s.tokens = .flowMappingEnd :: ts)
    (fuel depth : Nat)
    (isFirst : Bool)
    (read : List Entry) :
    flowEntries (fuel + 1) depth isFirst read s =
      .ok (read.reverse, s.after ts [] []) := by
  rw [flowEntries, bind_of_ok (nextIn_of_tokens _ h),
    if_pos (by simp), bind_of_ok (skip_of_tokens h)]
  rfl

/- Where a node starts it is read. -/
theorem nodeOrAbsent_node
    (hStarts : StartsNode t)
    (h : s.tokens = t :: ts)
    {stops : List Token}
    (hStops : ∀ u ∈ stops, u ∈ [.flowSequenceEnd, .flowMappingEnd,
      .flowEntry, .key, .value, .documentStart, .streamEnd])
    (fuel depth : Nat) :
    nodeOrAbsent (fuel + 1) depth false false stops s =
      nodeFrom fuel depth false false s := by
  have hNot : ¬ decide (t ∈ stops) = true := by
    rw [decide_eq_true_eq]
    exact fun hMem => hStarts.not_mem (hStops t hMem)
  rw [nodeOrAbsent, bind_of_ok (nextIn_of_tokens _ h), if_neg hNot]

/- An entry is read, and then the entries behind it. -/
theorem flowEntries_entry
    {isFirst : Bool}
    {us : List Token}
    {k : Key}
    (hStarts : ∃ t vs, us = t :: vs ∧ StartsNode t)
    (h : s.tokens = separator isFirst ++ (k.tokens ++ us))
    {fuel depth : Nat}
    {place : Place}
    {r : Stream}
    (hValue : nodeFrom fuel (depth + 1) false false
      (s.after us [k.node] [s.nodes.size]) = .ok (place, r))
    (read : List Entry) :
    flowEntries (fuel + 3) (depth + 1) isFirst read s =
      flowEntries (fuel + 2) (depth + 1) false
        ((s.nodes.size, place) :: read) r := by
  rcases hStarts with ⟨t, us, rfl, hStarts⟩
  let name : Token := .scalar false k.spelling.value
  let s₁ := s.after (.key :: name :: .value :: t :: us) [] []
  let s₂ := s.after (name :: .value :: t :: us) [] []
  let s₃ := s.after (.value :: t :: us) [k.node] [s.nodes.size]
  have hKey : nodeOrAbsent (fuel + 2) (depth + 1) false false
      [.value, .flowEntry, .flowMappingEnd] s₂ =
        .ok (s.nodes.size, s₃) := by
    rw [nodeOrAbsent_node (Or.inl ⟨_, _, rfl⟩) rfl (by simp),
      nodeFrom_scalar rfl (Nat.succ_pos _) (Nat.succ_pos _),
      Stream.size_after, Stream.after_after]
    rfl
  have hFlowValue : flowValue (fuel + 2) (depth + 1)
      .flowMappingEnd s₃ = .ok (place, r) := by
    have hTokens : s₃.tokens = .value :: t :: us := rfl
    rw [flowValue, bind_of_ok (nextIn_of_tokens _ hTokens),
      if_pos (by simp), bind_of_ok (skip_of_tokens hTokens),
      nodeOrAbsent_node hStarts rfl (by simp), Stream.after_after]
    exact hValue
  have hTokens : s₁.tokens = .key :: name :: .value :: t :: us := rfl
  have hSkip : skip s₁ = .ok ((), s₂) := by
    rw [skip_of_tokens hTokens, Stream.after_after]
    rfl
  rw [flowEntries]
  refine (afterSeparator (by decide) (by decide) h _ _).trans ?_
  change (nextIn [.key] >>= _) s₁ = _
  rw [bind_of_ok (nextIn_of_tokens _ hTokens), if_pos (by simp),
    bind_of_ok hSkip, bind_of_ok hKey, bind_of_ok hFlowValue]

------------------------------------------------------------
-- Trees
------------------------------------------------------------

/- A value starts with a scalar or a bracket. -/
theorem exists_tokens (v : Source) (rest : List Token) :
    ∃ t us, v.tokens ++ rest = t :: us ∧ StartsNode t := by
  cases v with
  | word w hWord => exact ⟨_, _, rfl, Or.inl ⟨_, _, rfl⟩⟩
  | number n => exact ⟨_, _, rfl, Or.inl ⟨_, _, rfl⟩⟩
  | string s => exact ⟨_, _, rfl, Or.inl ⟨_, _, rfl⟩⟩
  | emptyArray g => exact ⟨_, _, rfl, Or.inr (Or.inl rfl)⟩
  | array g v others => exact ⟨_, _, rfl, Or.inr (Or.inl rfl)⟩
  | emptyObject g => exact ⟨_, _, rfl, Or.inr (Or.inr rfl)⟩
  | object g k v others =>
      exact ⟨_, _, rfl, Or.inr (Or.inr rfl)⟩

theorem collectionFrom_flowSequence
    {r : Stream}
    {items : List Place}
    {fuel depth : Nat}
    (h : flowItems fuel depth true [] s = .ok (items, r)) :
    collectionFrom (fuel + 1) depth .flowSequence none s =
      .ok (.sequence .seq items, r) := by
  rw [collectionFrom, bind_of_ok h]
  rfl

theorem collectionFrom_flowMapping
    {r : Stream}
    {entries : List Entry}
    {fuel depth : Nat}
    (h : flowEntries fuel depth true [] s = .ok (entries, r)) :
    collectionFrom (fuel + 1) depth .flowMapping none s =
      .ok (.mapping .map entries, r) := by
  rw [collectionFrom, bind_of_ok h]
  rfl

/- The tokens of a value build its nodes. -/
def BuildsNode (v : Source) (fuel depth : Nat) : Prop :=
  ∀ {s : Stream} {ts : List Token} (inBlock : Bool),
    s.tokens = v.tokens ++ ts →
      nodeFrom fuel depth inBlock false s =
        .ok (s.nodes.size, s.after ts (v.nodes s.nodes.size)
          (v.order s.nodes.size))

/- The tokens of the rest of an array build its nodes. -/
def BuildsItems (i : Items) (fuel depth : Nat) : Prop :=
  ∀ {s : Stream} {ts : List Token} (read : List Place),
    s.tokens = i.tokens ++ ts →
      flowItems fuel depth false read s =
        .ok (read.reverse ++ i.places s.nodes.size,
          s.after ts (i.nodes s.nodes.size)
            (i.order s.nodes.size))

/- The tokens of the rest of an object build its nodes. -/
def BuildsEntries (m : Members) (fuel depth : Nat) : Prop :=
  ∀ {s : Stream} {ts : List Token} (read : List Entry),
    s.tokens = m.tokens ++ ts →
      flowEntries fuel depth false read s =
        .ok (read.reverse ++ m.entries s.nodes.size,
          s.after ts (m.nodes s.nodes.size)
            (m.order s.nodes.size))

/- An item and the items behind it are built one after another. -/
theorem flowItems_builds
    {v : Source}
    {others : Items}
    {fuel depth : Nat}
    (hItem : BuildsNode v fuel depth)
    (hOthers : BuildsItems others fuel depth)
    {isFirst : Bool}
    (h : s.tokens =
      separator isFirst ++ (v.tokens ++ (others.tokens ++ ts)))
    (read : List Place) :
    flowItems (fuel + 1) depth isFirst read s =
      .ok (read.reverse ++
          s.nodes.size :: others.places (s.nodes.size + v.size),
        s.after ts (v.nodes s.nodes.size ++
            others.nodes (s.nodes.size + v.size))
          (v.order s.nodes.size ++
            others.order (s.nodes.size + v.size))) := by
  have hNode : nodeFrom fuel depth false false
      (s.after (v.tokens ++ (others.tokens ++ ts)) [] []) =
        .ok (s.nodes.size, s.after (others.tokens ++ ts)
          (v.nodes s.nodes.size) (v.order s.nodes.size)) := by
    rw [hItem false rfl, Stream.size_after, Stream.after_after]
    rfl
  rw [flowItems_item (exists_tokens v _) h hNode, hOthers _ rfl,
    Stream.size_after, v.length_nodes, Stream.after_after]
  simp

/- An entry and those behind it are built one after another. -/
theorem flowEntries_builds
    {k : Key}
    {v : Source}
    {others : Members}
    {fuel depth : Nat}
    (hValue : BuildsNode v fuel (depth + 1))
    (hOthers : BuildsEntries others (fuel + 2) (depth + 1))
    {isFirst : Bool}
    (h : s.tokens = separator isFirst ++
      (k.tokens ++ (v.tokens ++ (others.tokens ++ ts))))
    (read : List Entry) :
    flowEntries (fuel + 3) (depth + 1) isFirst read s =
      .ok (read.reverse ++
          (s.nodes.size, s.nodes.size + 1) ::
            others.entries (s.nodes.size + 1 + v.size),
        s.after ts (k.node :: (v.nodes (s.nodes.size + 1) ++
            others.nodes (s.nodes.size + 1 + v.size)))
          (s.nodes.size :: (v.order (s.nodes.size + 1) ++
            others.order (s.nodes.size + 1 + v.size)))) := by
  have hNode : nodeFrom fuel (depth + 1) false false
      (s.after (v.tokens ++ (others.tokens ++ ts)) [k.node]
        [s.nodes.size]) =
        .ok (s.nodes.size + 1, s.after (others.tokens ++ ts)
          (k.node :: v.nodes (s.nodes.size + 1))
          (s.nodes.size :: v.order (s.nodes.size + 1))) := by
    rw [hValue false rfl, Stream.size_after, Stream.after_after]
    rfl
  rw [flowEntries_entry (exists_tokens v _) h hNode,
    hOthers _ rfl, Stream.size_after, List.length_cons,
    v.length_nodes, Stream.after_after]
  have hSize : s.nodes.size + (v.size + 1) =
      s.nodes.size + 1 + v.size := by omega
  rw [hSize]
  simp

theorem buildsNode_emptyArray (g : Json.Gap) (fuel depth : Nat) :
    BuildsNode (.emptyArray g) (fuel + 3) (depth + 1) := by
  intro s ts inBlock h
  let r := s.after (.flowSequenceEnd :: ts) [default] []
  have hItems := @flowItems_end r ts rfl fuel depth true []
  rw [Stream.after_after] at hItems
  exact nodeFrom_collection (Or.inl ⟨rfl, rfl⟩) h
    (collectionFrom_flowSequence hItems)

/- An array is built if its items are. -/
theorem buildsNode_array
    (g : Json.Gap)
    {v : Source}
    {others : Items}
    {fuel depth : Nat}
    (hItem : BuildsNode v fuel depth)
    (hOthers : BuildsItems others fuel depth) :
    BuildsNode (.array g v others) (fuel + 3) (depth + 1) := by
  intro s ts inBlock h
  let us := v.tokens ++ (others.tokens ++ ts)
  have hTokens : s.tokens = .flowSequenceStart :: us := by
    rw [h]
    simp [Source.tokens, us]
  have hItems := flowItems_builds hItem hOthers
    (show (s.after us [default] []).tokens = separator true ++ us
      from rfl) []
  rw [Stream.after_after, Stream.size_after] at hItems
  exact nodeFrom_collection (Or.inl ⟨rfl, rfl⟩) hTokens
    (collectionFrom_flowSequence hItems)

theorem buildsNode_emptyObject (g : Json.Gap) (fuel depth : Nat) :
    BuildsNode (.emptyObject g) (fuel + 3) (depth + 1) := by
  intro s ts inBlock h
  let r := s.after (.flowMappingEnd :: ts) [default] []
  have hEntries := @flowEntries_end r ts rfl fuel depth true []
  rw [Stream.after_after] at hEntries
  exact nodeFrom_collection (Or.inr ⟨rfl, rfl⟩) h
    (collectionFrom_flowMapping hEntries)

/- An object is built if its values are. -/
theorem buildsNode_object
    (g : Json.Gap)
    (k : Key)
    {v : Source}
    {others : Members}
    {fuel depth : Nat}
    (hValue : BuildsNode v fuel (depth + 1))
    (hOthers : BuildsEntries others (fuel + 2) (depth + 1)) :
    BuildsNode (.object g k v others) (fuel + 5) (depth + 2) := by
  intro s ts inBlock h
  let us := k.tokens ++ (v.tokens ++ (others.tokens ++ ts))
  have hTokens : s.tokens = .flowMappingStart :: us := by
    rw [h]
    simp [Source.tokens, us]
  have hEntries := flowEntries_builds hValue hOthers
    (show (s.after us [default] []).tokens = separator true ++ us
      from rfl) []
  rw [Stream.after_after, Stream.size_after] at hEntries
  exact nodeFrom_collection (Or.inr ⟨rfl, rfl⟩) hTokens
    (collectionFrom_flowMapping hEntries)

mutual

/- Each token of a value needs no more than three calls. -/
theorem buildsNode
    {v : Source}
    {fuel depth : Nat}
    (hFuel : 3 * v.tokens.length ≤ fuel)
    (hDepth : v.nesting < depth) : BuildsNode v fuel depth := by
  cases v with
  | word w hWord =>
      exact fun inBlock h => nodeFrom_scalar h
        (Nat.lt_of_lt_of_le (Nat.succ_pos 2) hFuel) hDepth inBlock
  | number n =>
      exact fun inBlock h => nodeFrom_scalar h
        (Nat.lt_of_lt_of_le (Nat.succ_pos 2) hFuel) hDepth inBlock
  | string t =>
      exact fun inBlock h => nodeFrom_scalar h
        (Nat.lt_of_lt_of_le (Nat.succ_pos 2) hFuel) hDepth inBlock
  | emptyArray g =>
      rcases Nat.exists_eq_add_of_le' hFuel with ⟨fuel, rfl⟩
      rcases Nat.exists_eq_add_of_le' hDepth with ⟨depth, rfl⟩
      exact buildsNode_emptyArray g (fuel + 3) (depth + 1)
  | array g v others =>
      simp only [Source.tokens, List.length_cons,
        List.length_append] at hFuel
      simp only [Source.nesting] at hDepth
      rcases Nat.exists_eq_add_of_le'
        (show 3 ≤ fuel by omega) with ⟨fuel, rfl⟩
      rcases Nat.exists_eq_add_of_le'
        (show 1 ≤ depth by omega) with ⟨depth, rfl⟩
      exact buildsNode_array g (buildsNode (by omega) (by omega))
        (buildsItems (by omega) (by omega))
  | emptyObject g =>
      rcases Nat.exists_eq_add_of_le' hFuel with ⟨fuel, rfl⟩
      rcases Nat.exists_eq_add_of_le' hDepth with ⟨depth, rfl⟩
      exact buildsNode_emptyObject g (fuel + 3) (depth + 1)
  | object g k v others =>
      simp only [Source.tokens, Key.tokens, List.length_cons,
        List.length_append, List.length_nil] at hFuel
      simp only [Source.nesting] at hDepth
      rcases Nat.exists_eq_add_of_le'
        (show 5 ≤ fuel by omega) with ⟨fuel, rfl⟩
      rcases Nat.exists_eq_add_of_le'
        (show 2 ≤ depth by omega) with ⟨depth, rfl⟩
      exact buildsNode_object g k (buildsNode (by omega) (by omega))
        (buildsEntries (by omega) (by omega))

/- So does each token of the rest of an array. -/
theorem buildsItems
    {i : Items}
    {fuel depth : Nat}
    (hFuel : 3 * i.tokens.length ≤ fuel)
    (hDepth : i.nesting < depth) : BuildsItems i fuel depth := by
  intro s ts read h
  cases i with
  | nil g =>
      rcases Nat.exists_eq_add_of_le' hFuel with ⟨fuel, rfl⟩
      refine (flowItems_end h (fuel + 2) depth false read).trans ?_
      simp [Items.places, Items.nodes, Items.order]
  | cons g a v others =>
      simp only [Items.tokens, List.length_cons,
        List.length_append] at hFuel
      simp only [Items.nesting] at hDepth
      rcases Nat.exists_eq_add_of_le'
        (show 1 ≤ fuel by omega) with ⟨fuel, rfl⟩
      have hV : BuildsNode v fuel depth :=
        buildsNode (by omega) (by omega)
      have hO : BuildsItems others fuel depth :=
        buildsItems (by omega) (by omega)
      refine flowItems_builds hV hO ?_ read
      rw [h]
      simp [Items.tokens, separator]

/- So does each token of the rest of an object. -/
theorem buildsEntries
    {m : Members}
    {fuel depth : Nat}
    (hFuel : 3 * m.tokens.length ≤ fuel)
    (hDepth : m.nesting < depth) : BuildsEntries m fuel depth := by
  intro s ts read h
  cases m with
  | nil g =>
      rcases Nat.exists_eq_add_of_le' hFuel with ⟨fuel, rfl⟩
      refine (flowEntries_end h (fuel + 2) depth false read).trans ?_
      simp [Members.entries, Members.nodes, Members.order]
  | cons g a k v others =>
      simp only [Members.tokens, Key.tokens, List.length_cons,
        List.length_append, List.length_nil] at hFuel
      simp only [Members.nesting] at hDepth
      rcases Nat.exists_eq_add_of_le'
        (show 3 ≤ fuel by omega) with ⟨fuel, rfl⟩
      rcases Nat.exists_eq_add_of_le'
        (show 1 ≤ depth by omega) with ⟨depth, rfl⟩
      have hV : BuildsNode v fuel (depth + 1) :=
        buildsNode (by omega) (by omega)
      have hO : BuildsEntries others (fuel + 2) (depth + 1) :=
        buildsEntries (by omega) (by omega)
      refine flowEntries_builds hV hO ?_ read
      rw [h]
      simp [Members.tokens, separator]

end

------------------------------------------------------------
-- Whole streams
------------------------------------------------------------

theorem atDirective_of_tokens
    (hStarts : StartsNode t)
    (h : s.tokens = t :: ts) : atDirective s = .ok (false, s) := by
  unfold atDirective
  rw [bind_of_ok (peek_of_tokens h)]
  rcases hStarts with ⟨p, text, rfl⟩ | rfl | rfl
  all_goals rfl

/- The root of a document without a start mark is a node. -/
theorem rootFrom_of_tokens
    (hStarts : StartsNode t)
    (h : s.tokens = t :: ts)
    (fuel : Nat) :
    rootFrom fuel s = nodeFrom fuel maxDepth true false s := by
  have hNot := hStarts.not_mem
  simp only [List.mem_cons, List.not_mem_nil, or_false, not_or]
    at hNot
  unfold rootFrom
  rw [bind_of_ok (nextIn_of_tokens _ h),
    bind_of_ok (atDirective_of_tokens hStarts h),
    if_neg (by simp [hNot])]

theorem skipEnds_of_tokens
    (h : s.tokens = .streamEnd :: ts)
    (fuel : Nat) : skipEnds fuel s = .ok ((), s) := by
  cases fuel with
  | zero => rfl
  | succ fuel =>
      rw [skipEnds, bind_of_ok (nextIn_of_tokens _ h)]
      rfl

/-
  The tokens of a value that is not nested too deeply build a
  table of its nodes, with the value on the first place.
-/
theorem ofTokens_source
    {v : Source}
    (h : v.nesting < maxDepth) :
    ofTokens (v.tokens ++ [.streamEnd]) none =
      .ok (some ⟨(v.nodes 0).toArray, v.order 0, 0⟩) := by
  rcases exists_tokens v [.streamEnd] with ⟨t, us, hTokens, hStarts⟩
  let s : Stream :=
    ⟨v.tokens ++ [.streamEnd], [], defaultHandles, #[], []⟩
  let fuel := 4 * s.tokens.length + 8
  have hNext : s.tokens = t :: us := hTokens
  have hNot := hStarts.not_mem
  simp only [List.mem_cons, List.not_mem_nil, or_false, not_or]
    at hNot
  have hFuel : 3 * v.tokens.length ≤ fuel := by
    simp only [fuel, s, List.length_append]
    omega
  have hNode := buildsNode hFuel h true
    (show s.tokens = v.tokens ++ [.streamEnd] from rfl)
  let r := s.after [.streamEnd] (v.nodes 0) (v.order 0)
  have hRoot : rootFrom fuel s = .ok (0, r) :=
    (rootFrom_of_tokens hStarts hNext fuel).trans hNode
  have hEnds : skipEnds fuel r = .ok ((), r) :=
    skipEnds_of_tokens rfl fuel
  have hExpect : expect .streamEnd r = .ok ((), r.after [] [] []) :=
    expect_of_tokens rfl
  have hGraph : graphFrom fuel s =
      .ok (some ⟨(v.nodes 0).toArray, v.order 0, 0⟩,
        r.after [] [] []) := by
    unfold graphFrom
    rw [bind_of_ok (nextIn_of_tokens _ hNext),
      if_neg (by simp [hNot]), bind_of_ok hRoot,
      bind_of_ok hEnds, bind_of_ok hExpect]
    change Except.ok (some (Graph.mk (r.after [] [] []).nodes
      (r.after [] [] []).complete.reverse 0), _) = _
    simp [Stream.after, r, s]
  have hRun : (graphFrom (4 * (v.tokens ++
      [Token.streamEnd]).length + 8)).run
        ⟨v.tokens ++ [.streamEnd], [], defaultHandles, #[], []⟩ = _ :=
    hGraph
  unfold ofTokens
  dsimp only
  rw [hRun]

end Graph

end Yaml

end TypedClient
