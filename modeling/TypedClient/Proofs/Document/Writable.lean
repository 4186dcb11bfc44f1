import Mathlib.Order.MinMax
import TypedClient.Document.Label

/-
  This file shows that a document has a text unless it holds an
  integer that is too long to be written, or is nested too deeply.

  Key definitions include:
    * `Document.IsShort`
    * `Document.depth`
    * `Document.Writable`

  Key theorems include:
    * `Document.tooMuch_of_label`
    * `Document.not_writable_of_label`
-/

namespace TypedClient

namespace Document

------------------------------------------------------------
-- Documents that can be written
------------------------------------------------------------

mutual

/- Every integer in a document is short enough to be written. -/
def IsShort : Document → Prop
  | int n =>
      (Number.decimalDigits n.natAbs).length ≤ maxDigits
  | list items => ItemsShort items
  | pairs es => EntriesShort es
  | set items => ItemsShort items
  | mapping es => EntriesShort es
  | knot _ d => d.IsShort
  | _ => True

/- The same of each item of a collection. -/
def ItemsShort : List Document → Prop
  | [] => True
  | d :: ds => d.IsShort ∧ ItemsShort ds

/- The same of each key and each value of a mapping. -/
def EntriesShort : List (Document × Document) → Prop
  | [] => True
  | (k, v) :: es => (k.IsShort ∧ v.IsShort) ∧ EntriesShort es

end

mutual

/-
  The levels that it takes to write a document.  Pairs and the
  items of a set lie one level deeper than other parts.
-/
def depth : Document → Nat
  | list items => itemsDepth items + 1
  | pairs es => entriesDepth es + 2
  | set items => itemsDepth items + 2
  | mapping es => entriesDepth es + 1
  | knot _ d => d.depth
  | _ => 0

/- The levels that it takes to write each item of a collection. -/
def itemsDepth : List Document → Nat
  | [] => 0
  | d :: ds => max d.depth (itemsDepth ds)

/- The same of each key and each value of a mapping. -/
def entriesDepth : List (Document × Document) → Nat
  | [] => 0
  | (k, v) :: es => max (max k.depth v.depth) (entriesDepth es)

end

/-
  A document that can be written: its integers are short enough,
  and it is not nested too deeply.
-/
structure Writable (d : Document) : Prop where
  short : d.IsShort
  shallow : d.depth ≤ maxDepth

------------------------------------------------------------
-- Faults
------------------------------------------------------------

/-
  The fault of what is written with some levels left, where
  `short` says that its integers are short, and `depth` how many
  levels it takes.
-/
inductive TooMuch
    (level : Nat)
    (short : Prop)
    (depth : Nat) : Fault → Prop
  | long (h : ¬ short) : TooMuch level short depth .badValue
  | deep (h : level < depth) : TooMuch level short depth .tooDeep

/- What is too much in a part is too much in the whole. -/
theorem TooMuch.of_part
    {level outer depth whole : Nat}
    {short all : Prop}
    {e : Fault}
    (h : TooMuch level short depth e)
    (hShort : all → short)
    (hDepth : level < depth → outer < whole) :
    TooMuch outer all whole e := by
  cases h with
  | long hLong => exact .long fun hAll => hLong (hShort hAll)
  | deep hDeep => exact .deep (hDepth hDeep)

/- Two steps in a row fail at one of them. -/
theorem error_of_bind
    {α β : Type}
    {x : Except Fault α}
    {f : α → Except Fault β}
    {e : Fault}
    (h : (x >>= f) = .error e) :
    x = .error e ∨ ∃ a, x = .ok a ∧ f a = .error e := by
  cases x with
  | ok a => exact Or.inr ⟨a, rfl, h⟩
  | error e' =>
      cases h
      exact Or.inl rfl

/- A step that ends in a result fails before that. -/
theorem error_of_return
    {α β : Type}
    {x : Except Fault α}
    {f : α → β}
    {e : Fault}
    (h : (x >>= fun a => Except.ok (f a)) = .error e) :
    x = .error e := by
  rcases error_of_bind h with hError | ⟨_, _, h⟩
  · exact hError
  · cases h

/- Going down fails where no level is left. -/
theorem tooMuch_of_descend
    {level depth : Nat}
    {short : Prop}
    {e : Fault}
    (h : descend level = .error e) :
    TooMuch level short (depth + 1) e := by
  cases level with
  | zero =>
      cases h
      exact .deep (Nat.succ_pos depth)
  | succ level => cases h

theorem eq_succ_of_descend
    {level below : Nat}
    (h : descend level = .ok below) : level = below + 1 := by
  cases level with
  | zero => cases h
  | succ level =>
      cases h
      rfl

/- What is written one level down takes one level more. -/
theorem tooMuch_of_below
    {α : Type}
    {level depth : Nat}
    {short : Prop}
    {e : Fault}
    {f : Nat → Except Fault α}
    (h : (descend level >>= f) = .error e)
    (hBelow : ∀ below, f below = .error e →
      TooMuch below short depth e) :
    TooMuch level short (depth + 1) e := by
  rcases error_of_bind h with hDeep | ⟨below, hLevel, hPart⟩
  · exact tooMuch_of_descend hDeep
  · rw [eq_succ_of_descend hLevel]
    exact (hBelow below hPart).of_part id Nat.succ_lt_succ

/- Writing breaks off because of an integer that is too long. -/
theorem tooMuch_of_decimal
    {n : Int}
    {level : Nat}
    {e : Fault}
    (h : decimal n = .error e) :
    TooMuch level (int n).IsShort (int n).depth e := by
  simp only [decimal] at h
  split at h
  next hLong =>
    cases h
    exact .long (Nat.not_le.2 hLong)
  next => cases h

mutual

/- So it does inside collections, or because of their depth. -/
theorem tooMuch_of_shown
    {d : Document}
    {inside : List Nat}
    {level : Nat}
    {e : Fault}
    (h : shown inside level d = .error e) :
    TooMuch level d.IsShort d.depth e := by
  cases d with
  | int n => exact tooMuch_of_decimal h
  | list items =>
      exact tooMuch_of_below h fun below hItems =>
        tooMuch_of_shownItems (error_of_return hItems)
  | pairs es =>
      exact tooMuch_of_below h fun below hEntries =>
        tooMuch_of_shownPairs (error_of_return hEntries)
  | set items =>
      cases items with
      | nil => cases h
      | cons d ds =>
          exact tooMuch_of_below h fun inner hInner =>
            tooMuch_of_below hInner fun below hItems =>
              tooMuch_of_shownItems (error_of_return hItems)
  | mapping es =>
      exact tooMuch_of_below h fun below hEntries =>
        tooMuch_of_shownEntries (error_of_return hEntries)
  | knot mark d =>
      rw [shown] at h
      split at h
      · cases h
      · have hInner := tooMuch_of_shown h
        exact hInner
  | null => cases h
  | bool b => cases h
  | double x => cases h
  | text t => cases h
  | bytes bs => cases h
  | day d => cases h
  | moment m => cases h

/- So it does among the items of a collection. -/
theorem tooMuch_of_shownItems
    {items : List Document}
    {inside : List Nat}
    {level : Nat}
    {e : Fault}
    (h : shownItems inside level items = .error e) :
    TooMuch level (ItemsShort items) (itemsDepth items) e := by
  cases items with
  | nil => cases h
  | cons d ds =>
      rcases error_of_bind h with hFirst | ⟨_, _, h⟩
      · exact (tooMuch_of_shown hFirst).of_part And.left
          fun hLt => lt_max_of_lt_left hLt
      · exact (tooMuch_of_shownItems (error_of_return h)).of_part
          And.right fun hLt => lt_max_of_lt_right hLt

/- So it does among pairs, each of which takes one level more. -/
theorem tooMuch_of_shownPairs
    {es : List (Document × Document)}
    {inside : List Nat}
    {level : Nat}
    {e : Fault}
    (h : shownPairs inside level es = .error e) :
    TooMuch level (EntriesShort es) (entriesDepth es + 1) e := by
  cases es with
  | nil => cases h
  | cons p es =>
      rcases p with ⟨k, v⟩
      rcases error_of_bind h with hDeep | ⟨below, hBelow, h⟩
      · exact tooMuch_of_descend hDeep
      · rw [eq_succ_of_descend hBelow] at h ⊢
        rcases error_of_bind h with hKey | ⟨_, _, h⟩
        · exact (tooMuch_of_shown hKey).of_part
            (fun hAll => hAll.1.1)
            fun hLt => Nat.succ_lt_succ
              (lt_max_of_lt_left (lt_max_of_lt_left hLt))
        · rcases error_of_bind h with hValue | ⟨_, _, h⟩
          · exact (tooMuch_of_shown hValue).of_part
              (fun hAll => hAll.1.2)
              fun hLt => Nat.succ_lt_succ
                (lt_max_of_lt_left (lt_max_of_lt_right hLt))
          · exact (tooMuch_of_shownPairs
              (error_of_return h)).of_part And.right
                fun hLt => hLt.trans_le
                  (Nat.succ_le_succ (le_max_right _ _))

/- So it does among the entries of a mapping. -/
theorem tooMuch_of_shownEntries
    {es : List (Document × Document)}
    {inside : List Nat}
    {level : Nat}
    {e : Fault}
    (h : shownEntries inside level es = .error e) :
    TooMuch level (EntriesShort es) (entriesDepth es) e := by
  cases es with
  | nil => cases h
  | cons p es =>
      rcases p with ⟨k, v⟩
      rcases error_of_bind h with hKey | ⟨_, _, h⟩
      · exact (tooMuch_of_shown hKey).of_part
          (fun hAll => hAll.1.1)
          fun hLt => lt_max_of_lt_left (lt_max_of_lt_left hLt)
      · rcases error_of_bind h with hValue | ⟨_, _, h⟩
        · exact (tooMuch_of_shown hValue).of_part
            (fun hAll => hAll.1.2)
            fun hLt => lt_max_of_lt_left (lt_max_of_lt_right hLt)
        · exact (tooMuch_of_shownEntries
            (error_of_return h)).of_part And.right
              fun hLt => lt_max_of_lt_right hLt

end

/- A document without a text is too much to be written. -/
theorem tooMuch_of_label
    {d : Document}
    {e : Fault}
    (h : d.label = .error e) :
    TooMuch maxDepth d.IsShort d.depth e := by
  unfold label at h
  split at h
  next => cases h
  next => cases h
  next => cases h
  next => exact tooMuch_of_shown (error_of_return h)

/- A document that can be written has a text. -/
theorem not_writable_of_label
    {d : Document}
    {e : Fault}
    (h : d.label = .error e) : ¬ d.Writable := by
  intro hWritable
  cases tooMuch_of_label h with
  | long hLong => exact hLong hWritable.short
  | deep hDeep => exact absurd hDeep hWritable.shallow.not_gt

------------------------------------------------------------
-- Their parts
------------------------------------------------------------

/- The items of a collection are short and shallow if it is. -/
theorem short_of_mem_items
    {items : List Document}
    {d : Document}
    (hd : d ∈ items) :
    (ItemsShort items → d.IsShort) ∧
      d.depth ≤ itemsDepth items := by
  induction items with
  | nil => cases hd
  | cons e es ih =>
      rcases List.mem_cons.1 hd with rfl | hd
      · exact ⟨And.left, le_max_left _ _⟩
      · rcases ih hd with ⟨hShort, hDepth⟩
        exact ⟨fun h => hShort h.2, le_max_of_le_right hDepth⟩

/- So are the keys and values of entries. -/
theorem short_of_mem_entries
    {es : List (Document × Document)}
    {e : Document × Document}
    (he : e ∈ es) :
    (EntriesShort es → e.1.IsShort ∧ e.2.IsShort) ∧
      e.1.depth ≤ entriesDepth es ∧
      e.2.depth ≤ entriesDepth es := by
  induction es with
  | nil => cases he
  | cons f fs ih =>
      rcases List.mem_cons.1 he with rfl | he
      · exact ⟨And.left, le_max_of_le_left (le_max_left _ _),
          le_max_of_le_left (le_max_right _ _)⟩
      · rcases ih he with ⟨hShort, hKey, hValue⟩
        exact ⟨fun h => hShort h.2, le_max_of_le_right hKey,
          le_max_of_le_right hValue⟩

/- Entries whose keys and values can be written. -/
def EntriesWritable (es : List (Document × Document)) : Prop :=
  ∀ e ∈ es, e.1.Writable ∧ e.2.Writable

/- The entries of a writable mapping are writable. -/
theorem entriesWritable_of_entries?
    {d : Document}
    {es : List (Document × Document)}
    (h : d.Writable)
    (hEntries : d.entries? = some es) : EntriesWritable es := by
  fun_induction entries? d with
  | case1 fs =>
      cases hEntries
      intro e he
      rcases short_of_mem_entries he with ⟨hShort, hKey, hValue⟩
      have hBelow : entriesDepth es ≤ maxDepth :=
        (Nat.le_succ _).trans h.shallow
      have hBoth := hShort h.short
      exact ⟨⟨hBoth.1, hKey.trans hBelow⟩,
        hBoth.2, hValue.trans hBelow⟩
  | case2 mark d ih => exact ih ⟨h.short, h.shallow⟩ hEntries
  | case3 => cases hEntries

/- So are the items of a writable list. -/
theorem writable_of_mem_items?
    {d item : Document}
    {items : List Document}
    (h : d.Writable)
    (hItems : d.items? = some items)
    (hMem : item ∈ items) : item.Writable := by
  fun_induction items? d with
  | case1 others =>
      cases hItems
      rcases short_of_mem_items hMem with ⟨hShort, hDepth⟩
      have hBelow : itemsDepth items ≤ maxDepth :=
        (Nat.le_succ _).trans h.shallow
      exact ⟨hShort h.short, hDepth.trans hBelow⟩
  | case2 mark d ih => exact ih ⟨h.short, h.shallow⟩ hItems
  | case3 => cases hItems

theorem exists_mem_of_find?
    {es : List (Document × Document)}
    {key : String}
    {d : Document}
    (h : find? es key = some d) : ∃ e ∈ es, e.2 = d := by
  rcases Option.map_eq_some_iff.1 h with ⟨e, he, hd⟩
  exact ⟨e, List.mem_of_find?_eq_some he, hd⟩

theorem EntriesWritable.of_find?
    {es : List (Document × Document)}
    {key : String}
    {d : Document}
    (h : EntriesWritable es)
    (hFind : find? es key = some d) : d.Writable := by
  rcases exists_mem_of_find? hFind with ⟨e, he, rfl⟩
  exact (h e he).2

end Document

end TypedClient
