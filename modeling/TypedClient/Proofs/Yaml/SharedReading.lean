import TypedClient.Proofs.Yaml.Building
import TypedClient.Proofs.Yaml.SharedTable

/-
  This file shows that a shared JSON text has the same value in
  YAML as in JSON: the documents of its nodes are put together
  from the parts up to the root.

  Key definitions include:
    * `Yaml.Progress.IsDone`
    * `Yaml.Progress.Settled`
    * `Yaml.Progress.SettlesValue`

  Key theorems include:
    * `Yaml.Progress.settled_source`
    * `Yaml.read_written`
-/

namespace TypedClient

------------------------------------------------------------
-- Entries
------------------------------------------------------------

namespace Document

/- A text key is replaced where a member is. -/
theorem insertEntry_member
    (ms : List (RawText × Json))
    (key : RawText)
    (value : Json) :
    insertEntry (ofMembers ms) (.text key) (ofJson value) =
      ofMembers (Json.insertMember ms key value) := by
  induction ms with
  | nil => rfl
  | cons m ms ih =>
      rcases m with ⟨k, v⟩
      rw [ofMembers, insertEntry, Json.insertMember]
      by_cases hSame : k = key
      · have hKey : (Document.text k).sameKey (.text key) = true :=
          decide_eq_true hSame
        rw [if_pos hKey, if_pos hSame, hSame]
        rfl
      · have hKey : ¬ (Document.text k).sameKey (.text key) = true :=
          fun hTrue => hSame (of_decide_eq_true hTrue)
        rw [if_neg hKey, if_neg hSame, ih]
        rfl

/- The entry of a member. -/
def ofMember (m : RawText × Json) : Document × Document :=
  (.text m.1, ofJson m.2)

/- The last of equal keys wins in both formats. -/
theorem ofEntries_members (pairs : List (RawText × Json)) :
    ofEntries (pairs.map ofMember) =
      ofMembers (Json.ofPairs pairs) := by
  have hFold (ms : List (RawText × Json)) :
      (pairs.map ofMember).foldl
          (fun es p => insertEntry es p.1 p.2) (ofMembers ms) =
        ofMembers (pairs.foldl
          (fun ms p => Json.insertMember ms p.1 p.2) ms) := by
    induction pairs generalizing ms with
    | nil => rfl
    | cons p pairs ih =>
        rw [List.map_cons, List.foldl_cons, List.foldl_cons, ← ih,
          ← insertEntry_member]
        rfl
  exact hFold []

end Document

namespace Yaml

namespace Progress

open Json (Source Items Members Key)

variable {nodes : Nodes}
variable {p : Progress}
variable {docs : Documents}
variable {n : Nat}

------------------------------------------------------------
-- Settling a node
------------------------------------------------------------

/- The progress when nothing waits any more. -/
structure IsDone (p : Progress) (nodes : Nodes) : Prop where
  going : p.Going nodes []
  waiting : p.waiting = []

/- The value of a scalar that was read. -/
theorem leaf?_of_scalar
    (h : p.IsDone nodes)
    {tag : Tag}
    {text : RawText}
    {d : Document}
    (hNode : nodes[n]? = some (.scalar tag text))
    (hValue : scalarValue tag text = .ok d)
    (hRead : p.IsRead n) : p.leaf? n = some d := by
  rcases hRead with ⟨st, hSt, hUnread⟩
  rcases h.going.known n _ hNode with ⟨other, hOther, hKnown⟩
  cases hSt.symm.trans hOther
  rw [leaf?, hSt]
  cases hKnown with
  | unread => exact (hUnread rfl).elim
  | leaf hFound =>
      cases hFound.symm.trans hValue
      rfl

/- A collection that was read is opened, and so its parts were. -/
theorem opened_of_read
    (h : p.IsDone nodes)
    {m : Node}
    (hNode : nodes[n]? = some m)
    (hCollection : ∀ tag text, m ≠ .scalar tag text)
    (hRead : p.IsRead n) :
    p.leaf? n = none ∧ ∀ i ∈ m.parts, p.IsRead i := by
  rcases hRead with ⟨st, hSt, hUnread⟩
  rcases h.going.known n _ hNode with ⟨other, hOther, hKnown⟩
  cases hSt.symm.trans hOther
  have hOpened : st = .opened := by
    cases hKnown with
    | unread => exact (hUnread rfl).elim
    | leaf => exact (hCollection _ _ rfl).elim
    | sequence => rfl
    | mapping => rfl
  subst hOpened
  refine ⟨by rw [leaf?, hSt], ?_⟩
  rcases h.going.parts n m hNode hSt with hWaits | hNone | hParts
  · rw [h.waiting] at hWaits
    cases hWaits
  · cases hNone
  · exact hParts

/-
  What settling some nodes has done: only the documents of the
  places from `n` to `last` may have changed.
-/
structure Settled
    (docs : Documents)
    (n last : Nat)
    (later : Documents) : Prop where
  size : later.size = docs.size
  others : ∀ i : Nat, i < n ∨ last ≤ i →
    get? later i = get? docs i

theorem Settled.refl
    (docs : Documents)
    (n : Nat) : Settled docs n n docs :=
  ⟨rfl, fun _ _ => rfl⟩

/- Changes in a row are changes from the first place on. -/
theorem Settled.trans
    {later last : Documents}
    {first mid stop : Nat}
    (h : Settled docs first mid later)
    (hNext : Settled later mid stop last)
    (hFirst : first ≤ mid)
    (hMid : mid ≤ stop) : Settled docs first stop last where
  size := hNext.size.trans h.size
  others i hI := by
    rw [hNext.others i (by omega), h.others i (by omega)]

theorem Settled.front
    {later last : Documents}
    {stop : Nat}
    (h : Settled docs (n + 1) stop later)
    (hNext : Settled later n (n + 1) last)
    (hStop : n + 1 ≤ stop) : Settled docs n stop last where
  size := hNext.size.trans h.size
  others i hI := by
    rw [hNext.others i (by omega), h.others i (by omega)]

/- A document is put on its place. -/
theorem settled_set
    (hPlace : n < docs.size)
    (d : Document) :
    Settled docs n (n + 1) (docs.setIfInBounds n (some d)) ∧
      get? (docs.setIfInBounds n (some d)) n = some d := by
  constructor
  · constructor
    case size => exact Array.size_setIfInBounds
    case others =>
      intro i hI
      have hOther : n ≠ i := by omega
      unfold get?
      rw [Array.getElem?_setIfInBounds_ne hOther]
  · unfold get?
    rw [Array.getElem?_setIfInBounds_self_of_lt hPlace]
    rfl

/- A scalar that was read settles to its value. -/
theorem settle_scalar
    (h : p.IsDone nodes)
    {tag : Tag}
    {text : RawText}
    {d : Document}
    (hNode : nodes[n]? = some (.scalar tag text))
    (hValue : scalarValue tag text = .ok d)
    (hRead : p.IsRead n)
    (hSize : docs.size = nodes.size) :
    Settled docs n (n + 1) (p.settle docs n) ∧
      get? (p.settle docs n) n = some d := by
  have hSettle : p.settle docs n = docs.setIfInBounds n (some d) := by
    rw [settle, leaf?_of_scalar h hNode hValue hRead]
  have hPlace : n < docs.size := by
    rw [hSize]
    exact (Array.getElem?_eq_some_iff.1 hNode).1
  rw [hSettle]
  exact settled_set hPlace d

/- A collection settles when its parts are there. -/
theorem settle_collection
    (h : p.IsDone nodes)
    {m : Node}
    (hNode : nodes[n]? = some m)
    (hCollection : ∀ tag text, m ≠ .scalar tag text)
    (hRead : p.IsRead n)
    (hParts : ∀ i ∈ p.partsOf m, (get? docs i).isSome = true)
    (hSize : docs.size = nodes.size) :
    Settled docs n (n + 1) (p.settle docs n) ∧
      get? (p.settle docs n) n =
        some (p.assemble (fun i => (get? docs i).getD .null) m) := by
  have hAll : ((p.partsOf m).all fun i => (get? docs i).isSome) =
      true := List.all_eq_true.2 hParts
  have hSettle : p.settle docs n = docs.setIfInBounds n
      (some (p.assemble (fun i => (get? docs i).getD .null) m)) := by
    unfold settle
    rw [(opened_of_read h hNode hCollection hRead).1, h.going.table,
      hNode]
    exact if_pos hAll
  have hPlace : n < docs.size := by
    rw [hSize]
    exact (Array.getElem?_eq_some_iff.1 hNode).1
  rw [hSettle]
  exact settled_set hPlace _

------------------------------------------------------------
-- Trees
------------------------------------------------------------

/- The documents of items are on their places. -/
def ItemsAt
    (docs : Documents)
    (places : List Place)
    (values : List Json) : Prop :=
  places.map (get? docs) =
    values.map fun v => some (Document.ofJson v)

/- The documents of entries are on their places. -/
def EntriesAt
    (docs : Documents)
    (entries : List Entry)
    (pairs : List (RawText × Json)) : Prop :=
  entries.map (fun e => (get? docs e.1, get? docs e.2)) =
    pairs.map fun m =>
      (some (.text m.1), some (Document.ofJson m.2))

theorem ofItems_eq_map (values : List Json) :
    Document.ofItems values = values.map Document.ofJson := by
  induction values with
  | nil => rfl
  | cons v values ih => rw [Document.ofItems, ih, List.map_cons]

/- Items that are there are put together. -/
theorem ItemsAt.assemble
    {places : List Place}
    {values : List Json}
    (h : ItemsAt docs places values) :
    (∀ i ∈ places, (get? docs i).isSome = true) ∧
      places.map (fun i => (get? docs i).getD .null) =
        Document.ofItems values := by
  constructor
  · intro i hI
    have hMem := List.mem_map_of_mem (f := get? docs) hI
    rw [h] at hMem
    rcases List.mem_map.1 hMem with ⟨v, -, hV⟩
    rw [← hV]
    rfl
  · have hMap := congrArg (List.map fun d : Option Document =>
      d.getD .null) h
    rw [List.map_map, List.map_map] at hMap
    rw [ofItems_eq_map]
    exact hMap

/- Entries that are there are put together. -/
theorem EntriesAt.assemble
    {entries : List Entry}
    {pairs : List (RawText × Json)}
    (h : EntriesAt docs entries pairs) :
    (∀ i ∈ entries.flatMap fun e => [e.1, e.2],
        (get? docs i).isSome = true) ∧
      entries.map (fun e => ((get? docs e.1).getD .null,
          (get? docs e.2).getD .null)) =
        pairs.map Document.ofMember := by
  constructor
  · intro i hI
    rcases List.mem_flatMap.1 hI with ⟨e, hE, hI⟩
    have hMem := List.mem_map_of_mem
      (f := fun e : Entry => (get? docs e.1, get? docs e.2)) hE
    rw [h] at hMem
    rcases List.mem_map.1 hMem with ⟨m, -, hM⟩
    rcases Prod.mk.inj hM with ⟨hKey, hValue⟩
    simp only [List.mem_cons, List.not_mem_nil, or_false] at hI
    rcases hI with rfl | rfl
    · rw [← hKey]
      rfl
    · rw [← hValue]
      rfl
  · have hMap := congrArg (List.map
      fun d : Option Document × Option Document =>
        (d.1.getD .null, d.2.getD .null)) h
    rw [List.map_map, List.map_map] at hMap
    exact hMap

/- An item settles, and then the items behind it. -/
theorem ItemsAt.cons
    {later last : Documents}
    {mid stop : Nat}
    {v : Json}
    {places : List Place}
    {values : List Json}
    (hFirst : Settled docs n mid later ∧
      get? later n = some (Document.ofJson v))
    (hNext : Settled later mid stop last ∧
      ItemsAt last places values)
    (hMid : n < mid)
    (hStop : mid ≤ stop) :
    Settled docs n stop last ∧
      ItemsAt last (n :: places) (v :: values) := by
  refine ⟨hFirst.1.trans hNext.1 (Nat.le_of_lt hMid) hStop, ?_⟩
  unfold ItemsAt
  rw [List.map_cons, List.map_cons,
    hNext.1.others n (Or.inl hMid), hFirst.2, hNext.2]

/- An entry settles, and then the entries behind it. -/
theorem EntriesAt.cons
    {keyed later last : Documents}
    {mid stop : Nat}
    {key : RawText}
    {v : Json}
    {entries : List Entry}
    {pairs : List (RawText × Json)}
    (hKey : Settled docs n (n + 1) keyed ∧
      get? keyed n = some (.text key))
    (hValue : Settled keyed (n + 1) mid later ∧
      get? later (n + 1) = some (Document.ofJson v))
    (hNext : Settled later mid stop last ∧
      EntriesAt last entries pairs)
    (hMid : n + 1 < mid)
    (hStop : mid ≤ stop) :
    Settled docs n stop last ∧
      EntriesAt last ((n, n + 1) :: entries)
        ((key, v) :: pairs) := by
  have hBehind := hValue.1.trans hNext.1 (Nat.le_of_lt hMid) hStop
  refine ⟨hKey.1.trans hBehind (Nat.le_succ n) (by omega), ?_⟩
  unfold EntriesAt
  rw [List.map_cons, List.map_cons,
    hBehind.others n (Or.inl (Nat.lt_succ_self n)), hKey.2,
    hNext.1.others (n + 1) (Or.inl hMid), hValue.2, hNext.2]

/- A value has a node. -/
theorem size_pos (v : Source) : 0 < v.size := by
  cases v with
  | word => exact Nat.succ_pos 0
  | number => exact Nat.succ_pos 0
  | string => exact Nat.succ_pos 0
  | emptyArray => exact Nat.succ_pos 0
  | array g v others =>
      simp only [Source.size]
      omega
  | emptyObject => exact Nat.succ_pos 0
  | object g k v others =>
      simp only [Source.size]
      omega

/- The parts of a mapping are its keys and values. -/
theorem assemble_mapping
    {entries : List Entry}
    {pairs : List (RawText × Json)}
    (h : EntriesAt docs entries pairs) :
    p.assemble (fun i => (get? docs i).getD .null)
        (.mapping .map entries) =
      Document.ofJson (.object (Json.ofPairs pairs)) := by
  change Document.mapping (Document.ofEntries (entries.map fun e =>
    ((get? docs e.1).getD .null, (get? docs e.2).getD .null))) = _
  rw [h.assemble.2, Document.ofEntries_members]
  rfl

/-
  The nodes of a value that was read settle, each behind its
  parts, and the value is on its place.
-/
def SettlesValue (p : Progress) (nodes : Nodes) (v : Source) : Prop :=
  ∀ {n : Nat} {docs : Documents},
    nodes.Holds n (v.nodes n) → p.IsRead n →
    docs.size = nodes.size →
    Settled docs n (n + v.size) ((v.order n).foldl p.settle docs) ∧
      get? ((v.order n).foldl p.settle docs) n =
        some (Document.ofJson v.value)

/- So do the items of the rest of an array. -/
def SettlesItems (p : Progress) (nodes : Nodes) (i : Items) : Prop :=
  ∀ {n : Nat} {docs : Documents},
    nodes.Holds n (i.nodes n) → (∀ j ∈ i.places n, p.IsRead j) →
    docs.size = nodes.size →
    Settled docs n (n + i.size) ((i.order n).foldl p.settle docs) ∧
      ItemsAt ((i.order n).foldl p.settle docs) (i.places n)
        i.values

/- So do the entries of the rest of an object. -/
def SettlesMembers (p : Progress) (nodes : Nodes) (m : Members) :
    Prop :=
  ∀ {n : Nat} {docs : Documents},
    nodes.Holds n (m.nodes n) →
    (∀ i ∈ (m.entries n).flatMap fun e => [e.1, e.2],
      p.IsRead i) →
    docs.size = nodes.size →
    Settled docs n (n + m.size) ((m.order n).foldl p.settle docs) ∧
      EntriesAt ((m.order n).foldl p.settle docs) (m.entries n)
        m.pairs

/- An item settles, and then the items behind it. -/
theorem settled_item
    {v : Source}
    {others : Items}
    (hValue : SettlesValue p nodes v)
    (hItems : SettlesItems p nodes others)
    (hHolds : nodes.Holds n (v.nodes n ++ others.nodes (n + v.size)))
    (hRead : ∀ i ∈ n :: others.places (n + v.size), p.IsRead i)
    (hSize : docs.size = nodes.size) :
    Settled docs n (n + v.size + others.size)
        ((v.order n ++ others.order (n + v.size)).foldl p.settle
          docs) ∧
      ItemsAt
        ((v.order n ++ others.order (n + v.size)).foldl p.settle
          docs)
        (n :: others.places (n + v.size))
        (v.value :: others.values) := by
  rcases Nodes.along_source_append_iff.1 hHolds with ⟨hV, hOthers⟩
  have hFirst := hValue hV (hRead n List.mem_cons_self) hSize
  have hNext := hItems hOthers
    (fun i hI => hRead i (List.mem_cons_of_mem _ hI))
    (hFirst.1.size.trans hSize)
  rw [List.foldl_append]
  exact ItemsAt.cons hFirst hNext
    (Nat.lt_add_of_pos_right (size_pos v)) (Nat.le_add_right _ _)

/- A member settles, and then the members behind it. -/
theorem settled_member
    {k : Key}
    {v : Source}
    {others : Members}
    (h : p.IsDone nodes)
    (hValue : SettlesValue p nodes v)
    (hMembers : SettlesMembers p nodes others)
    (hHolds : nodes.Holds n (k.node :: (v.nodes (n + 1) ++
      others.nodes (n + 1 + v.size))))
    (hRead : ∀ i ∈ ((n, n + 1) ::
      others.entries (n + 1 + v.size)).flatMap fun e => [e.1, e.2],
      p.IsRead i)
    (hSize : docs.size = nodes.size) :
    Settled docs n (n + 1 + v.size + others.size)
        ((n :: (v.order (n + 1) ++
          others.order (n + 1 + v.size))).foldl p.settle docs) ∧
      EntriesAt
        ((n :: (v.order (n + 1) ++
          others.order (n + 1 + v.size))).foldl p.settle docs)
        ((n, n + 1) :: others.entries (n + 1 + v.size))
        ((k.spelling.value, v.value) :: others.pairs) := by
  rcases Nodes.along_cons_iff.1 hHolds with ⟨hNode, hBehind⟩
  rcases Nodes.along_source_append_iff.1 hBehind with
    ⟨hV, hOthers⟩
  have hKey := settle_scalar h hNode rfl
    (hRead n List.mem_cons_self) hSize
  have hFirst := hValue hV
    (hRead (n + 1) (List.mem_cons_of_mem _ List.mem_cons_self))
    (hKey.1.size.trans hSize)
  have hNext := hMembers hOthers
    (fun i hI => hRead i (List.mem_cons_of_mem _
      (List.mem_cons_of_mem _ hI)))
    (hFirst.1.size.trans (hKey.1.size.trans hSize))
  rw [List.foldl_cons, List.foldl_append]
  exact EntriesAt.cons hKey hFirst hNext
    (Nat.lt_add_of_pos_right (size_pos v)) (Nat.le_add_right _ _)

mutual

/- The nodes of shared values settle. -/
theorem settled_source
    {v : Source}
    (hShared : v.IsShared)
    (hFits : v.Fits)
    (h : p.IsDone nodes) : SettlesValue p nodes v := by
  intro n docs hHolds hRead hSize
  cases v with
  | word w hWord =>
      rcases scalarValue_word hWord hShared with
        ⟨tag, rfl, -, hValue⟩
      exact settle_scalar h (Nodes.along_cons_iff.1 hHolds).1 hValue
        hRead hSize
  | number m =>
      rcases scalarValue_numeral hShared hFits with
        ⟨tag, rfl, -, hValue⟩
      exact settle_scalar h (Nodes.along_cons_iff.1 hHolds).1 hValue
        hRead hSize
  | string s =>
      exact settle_scalar h (Nodes.along_cons_iff.1 hHolds).1 rfl
        hRead hSize
  | emptyArray g =>
      exact settle_collection h (Nodes.along_cons_iff.1 hHolds).1
        (fun _ _ => Node.noConfusion) hRead
        (fun i hI => nomatch hI) hSize
  | array g v others =>
      rcases Nodes.along_cons_iff.1 hHolds with ⟨hNode, hBehind⟩
      have hCollection (tag : Tag) (text : RawText) :
          Node.sequence .seq ((n + 1) ::
            others.places (n + 1 + v.size)) ≠ .scalar tag text :=
        Node.noConfusion
      -- the root is opened first, and settles behind its items
      have hItems := settled_item
        (settled_source hShared.2.1 hFits.1 h)
        (settled_items hShared.2.2 hFits.2 h) hBehind
        (opened_of_read h hNode hCollection hRead).2 hSize
      have hRoot := settle_collection h hNode hCollection hRead
        hItems.2.assemble.1 (hItems.1.size.trans hSize)
      have hSum : n + (Source.array g v others).size =
          n + 1 + v.size + others.size := by
        simp only [Source.size]
        omega
      rw [hSum, Source.order, List.foldl_append]
      refine ⟨hItems.1.front hRoot.1 (by omega), hRoot.2.trans ?_⟩
      exact congrArg (fun ds => some (Document.list ds))
        hItems.2.assemble.2
  | emptyObject g =>
      exact settle_collection h (Nodes.along_cons_iff.1 hHolds).1
        (fun _ _ => Node.noConfusion) hRead
        (fun i hI => nomatch hI) hSize
  | object g k v others =>
      rcases Nodes.along_cons_iff.1 hHolds with ⟨hNode, hBehind⟩
      have hCollection (tag : Tag) (text : RawText) :
          Node.mapping .map ((n + 1, n + 2) ::
            others.entries (n + 2 + v.size)) ≠ .scalar tag text :=
        Node.noConfusion
      have hEntries := settled_member h
        (settled_source hShared.2.2.1 hFits.1 h)
        (settled_members hShared.2.2.2 hFits.2 h) hBehind
        (opened_of_read h hNode hCollection hRead).2 hSize
      have hRoot := settle_collection h hNode hCollection hRead
        hEntries.2.assemble.1 (hEntries.1.size.trans hSize)
      have hSum : n + (Source.object g k v others).size =
          n + 2 + v.size + others.size := by
        simp only [Source.size]
        omega
      rw [hSum, Source.order, List.foldl_append]
      refine ⟨hEntries.1.front hRoot.1 (by omega),
        hRoot.2.trans ?_⟩
      exact congrArg some (assemble_mapping hEntries.2)

/- So do those of the rest of a shared array. -/
theorem settled_items
    {i : Items}
    (hShared : i.IsShared)
    (hFits : i.Fits)
    (h : p.IsDone nodes) : SettlesItems p nodes i := by
  intro n docs hHolds hRead hSize
  cases i with
  | nil g => exact ⟨.refl docs n, rfl⟩
  | cons g a v others =>
      have hItems := settled_item
        (settled_source hShared.2.2.1 hFits.1 h)
        (settled_items hShared.2.2.2 hFits.2 h) hHolds hRead hSize
      rw [Nat.add_assoc] at hItems
      exact hItems

/- So do those of the rest of a shared object. -/
theorem settled_members
    {m : Members}
    (hShared : m.IsShared)
    (hFits : m.Fits)
    (h : p.IsDone nodes) : SettlesMembers p nodes m := by
  intro n docs hHolds hRead hSize
  cases m with
  | nil g => exact ⟨.refl docs n, rfl⟩
  | cons g a k v others =>
      have hEntries := settled_member h
        (settled_source hShared.2.2.2.1 hFits.1 h)
        (settled_members hShared.2.2.2.2 hFits.2 h) hHolds hRead
        hSize
      have hSum : n + (Members.cons g a k v others).size =
          n + 1 + v.size + others.size := by
        simp only [Members.size]
        omega
      rw [hSum]
      exact hEntries

end

end Progress

------------------------------------------------------------
-- Whole texts
------------------------------------------------------------

/- The document of the table of a shared value is that value. -/
theorem toDocument_source
    {v : Json.Source}
    (hShared : v.IsShared)
    (hFits : v.Fits) :
    Graph.toDocument ⟨(v.nodes 0).toArray, v.order 0, 0⟩ =
      .ok (Document.ofJson v.value) := by
  let nodes : Nodes := (v.nodes 0).toArray
  have hSimple : nodes.AreSimple := Nodes.areSimple_source hShared hFits
  have hHolds : nodes.Holds 0 (v.nodes 0) := Nodes.holds_toArray _
  rcases Progress.exists_finished hSimple
    (Nodes.lt_size_of_source hHolds) with
    ⟨p, hFinish, hGoing, hWaiting, hRead⟩
  let empty : Progress.Documents := Array.replicate nodes.size none
  have hRoot := (Progress.settled_source hShared hFits
    ⟨hGoing, hWaiting⟩ hHolds hRead
    (show empty.size = nodes.size from Array.size_replicate)).2
  have hSteps : Graph.toDocument ⟨nodes, v.order 0, 0⟩ =
      (do
        let p ← (Progress.start nodes).touch 0
        p.finish (nodes.size + 1)) >>= fun p =>
          Except.ok (p.unfold ((v.order 0).foldl p.settle empty)
            (nodes.size + freeLevels + 2) freeLevels [] 0) := by
    unfold Graph.toDocument
    cases (Progress.start nodes).touch 0 with
    | error e => rfl
    | ok q => rfl
  rw [hSteps, hFinish]
  refine congrArg Except.ok ?_
  rw [Progress.unfold, hRoot]

/-
  A shared text with no integer too long is read as YAML, and has
  the value that it has in JSON.
-/
theorem read_written
    {w : Json.Written}
    (hShared : w.IsShared)
    (hFits : w.source.Fits) :
    read w.text = .ok (Document.ofJson w.source.value) := by
  unfold read
  rw [scan_written hShared]
  dsimp only
  rw [Graph.ofTokens_source hShared.nesting]
  exact toDocument_source hShared.source hFits

end Yaml

end TypedClient
