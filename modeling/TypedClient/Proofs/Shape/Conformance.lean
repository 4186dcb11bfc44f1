import TypedClient.Proofs.Json.Number
import TypedClient.Proofs.Shape.Place

/-
  This file says what a shape tells about a value, and shows that
  inference tells the truth: a value conforms to the shape that is
  inferred from it, under the table of the records in it, unless
  two objects in it get records of one name.

  Key definitions include:
    * `Shape.Conforms`

  Key theorems include:
    * `Shape.conforms_find`
    * `Shape.conforms_infer`
-/

namespace TypedClient

namespace Shape

------------------------------------------------------------
-- Conformance
------------------------------------------------------------

/-
  A value conforms to a shape under a table of records.  The first
  item of an array and the first entry of a mapping stand for the
  others; a record has the keys of the object, and the value under
  each key conforms to its field.  The shape of which nothing is
  known is for the values that `unknown` admits.
-/
inductive Conforms
    (t : Table)
    (unknown : Json → Prop) : Json → Shape → Prop where
  | untyped
      {value : Json}
      (h : unknown value) :
      Conforms t unknown value untyped
  | bool (b : Bool) :
      Conforms t unknown (.bool b) (.primitive .bool)
  | int
      {value : Json}
      (h : value.IsWord) :
      Conforms t unknown value (.primitive .int)
  | float
      {value : Json}
      (hNumber : value.IsNumber)
      (h : ¬ value.IsWord) :
      Conforms t unknown value (.primitive .float)
  | text (s : RawText) :
      Conforms t unknown (.string s) (.primitive .text)
  | noItems (item : Shape) :
      Conforms t unknown (.array []) (.list item)
  | items
      {v : Json}
      {vs : List Json}
      {item : Shape}
      (h : Conforms t unknown v item) :
      Conforms t unknown (.array (v :: vs)) (.list item)
  | noEntries (value : Shape) :
      Conforms t unknown (.object []) (.map value)
  | entries
      {members : List (RawText × Json)}
      {m : RawText × Json}
      {value : Shape}
      (hMapping : IsMapping members)
      (hFirst : IsFirst m members)
      (h : Conforms t unknown m.2 value) :
      Conforms t unknown (.object members) (.map value)
  | record
      {members : List (RawText × Json)}
      {r : Record}
      (hObject : IsRecordObject (.object members))
      (hRecord : t.get? r.name = some r)
      (hKeys : (r.fields.map Field.key).Perm
        (members.map Prod.fst))
      (hFields : ∀ f ∈ r.fields, ∀ m ∈ members,
        m.1 = f.key → Conforms t unknown m.2 f.shape) :
      Conforms t unknown (.object members) (.record r.name)

variable {t : Table}

/- A value conforms still if more is admitted for nothing known. -/
theorem Conforms.mono
    {unknown more : Json → Prop}
    (hMore : ∀ v, unknown v → more v)
    {value : Json}
    {shape : Shape}
    (h : Conforms t unknown value shape) :
    Conforms t more value shape := by
  induction h with
  | untyped h => exact .untyped (hMore _ h)
  | bool b => exact .bool b
  | int h => exact .int h
  | float hNumber h => exact .float hNumber h
  | text s => exact .text s
  | noItems item => exact .noItems item
  | items _ ih => exact .items ih
  | noEntries value => exact .noEntries value
  | entries hMapping hFirst _ ih =>
      exact .entries hMapping hFirst ih
  | record hObject hRecord hKeys _ ih =>
      exact .record hObject hRecord hKeys ih

/- A number conforms to the primitive that goes by its value. -/
theorem conforms_number
    {unknown : Json → Prop}
    {value : Json}
    {p : Primitive}
    (hNumber : value.IsNumber)
    (hPrimitive : p = .int ∨ p = .float)
    (hWord : p = .int ↔ value.IsWord) :
    Conforms t unknown value (.primitive p) := by
  rcases hPrimitive with rfl | rfl
  · exact .int (hWord.1 rfl)
  · exact .float hNumber fun h => by cases hWord.2 h

/- A leaf conforms to its shape; only null has an unknown one. -/
theorem conforms_of_isLeaf
    {value : Json}
    {shape : Shape}
    (h : IsLeaf value shape) :
    Conforms t (· = .null) value shape := by
  cases h with
  | null => exact .untyped rfl
  | bool b => exact .bool b
  | int n =>
      exact conforms_number trivial (Primitive.ofInteger_eq_or n)
        Primitive.ofInteger_eq_int_iff_isWord
  | double x =>
      exact conforms_number trivial (Primitive.ofDouble_eq_or x)
        Primitive.ofDouble_eq_int_iff_isWord
  | string s => exact .text s
  | array => exact .noItems untyped
  | object => exact .noEntries untyped

------------------------------------------------------------
-- Findings
------------------------------------------------------------

/- A table in which each record of a finding is under its name. -/
def Finding.IsIn (found : Finding Shape) (t : Table) : Prop :=
  ∀ r ∈ found.records, t.get? r.name = some r

/-
  An object conforms to its record if what is found below each of
  its members conforms.
-/
theorem conforms_record
    {find : Find}
    {name : String}
    {members : List (RawText × Json)}
    {shape : Shape}
    (hObject : IsRecordObject (.object members))
    (hKeys : (members.map Prod.fst).Nodup)
    (hFind : ∀ name, ∀ m ∈ members, ∀ shape,
      (find name m.2).result = some shape →
        (find name m.2).IsIn t →
          Conforms t (· = .null) m.2 shape)
    (h : (findRecord find name
      (Json.sortMembers members)).result = some shape)
    (hTable : (findRecord find name
      (Json.sortMembers members)).IsIn t) :
    Conforms t (· = .null) (.object members) shape := by
  have hPerm := Json.perm_sortMembers members
  rcases Finding.result_andThen.1 h with
    ⟨fields, hFields, hRecord⟩
  cases hRecord
  rw [findRecord_of_findFields hFields] at hTable
  refine Conforms.record (r := ⟨name, fields⟩) hObject ?_ ?_ ?_
  · exact hTable _ (List.mem_append_right _ List.mem_cons_self)
  · rw [keys_findFields hFields]
    exact hPerm.map Prod.fst
  · intro f hf m hm hKey
    rcases exists_member_findFields hFields hf with
      ⟨n, hn, hField, hRecords⟩
    have hMember : n ∈ members := hPerm.mem_iff.1 hn
    have hEq : m = n :=
      List.inj_on_of_nodup_map hKeys hm hMember
        (hKey.trans hField.key)
    rw [hEq]
    exact hFind _ n hMember f.shape hField.shape fun r hr =>
      hTable r (List.mem_append_left _ (hRecords hr))

/-
  A value conforms to the shape found for it under any table that
  has all the records found in it.
-/
theorem conforms_find
    (budget : Nat)
    (name : String)
    {value : Json}
    (hValue : value.WellFormed)
    {shape : Shape}
    (h : (find budget name value).result = some shape)
    (hTable : (find budget name value).IsIn t) :
    Conforms t (· = .null) value shape := by
  revert hValue shape h hTable
  refine find_induction
    (P := fun _ value found => value.WellFormed →
      ∀ {shape}, found.result = some shape → found.IsIn t →
        Conforms t (· = .null) value shape)
    ?tooDeep ?leaf ?array ?numbered ?object budget name value
  case tooDeep =>
    intro name value _ shape h
    cases h
  case leaf =>
    intro name value found hLeaf _ shape h _
    cases h
    exact conforms_of_isLeaf hLeaf
  case array =>
    intro name v vs found ih hValue shape h hTable
    rcases Finding.result_map.1 h with ⟨item, hItem, rfl⟩
    cases hValue with
    | array hItems =>
        exact .items
          (ih (hItems v List.mem_cons_self) hItem hTable)
  case numbered =>
    intro name members m ms found hSorted hNumbered ih hValue
      shape h hTable
    have hFirst := isFirst_of_sortMembers hSorted
    rw [← hSorted, isNumbered_sortMembers] at hNumbered
    rcases Finding.result_map.1 h with ⟨entry, hEntry, rfl⟩
    cases hValue with
    | object hKeys hValues =>
        exact .entries hNumbered hFirst
          (ih (hValues m hFirst.1) hEntry hTable)
  case object =>
    intro name members m ms find hSorted hNamed hFind hValue
      shape h hTable
    have hObject := isRecordObject_of_sortMembers hSorted hNamed
    rw [← hSorted] at h hTable
    cases hValue with
    | object hKeys hValues =>
        exact conforms_record hObject hKeys
          (fun name m hm shape =>
            hFind name m.2 (hValues m hm)) h hTable

------------------------------------------------------------
-- Inference
------------------------------------------------------------

/-
  A value in which no two objects get records of one name conforms
  to the shape that is inferred from it on the empty table, under
  the table that is left.  The shape of which nothing is known
  stands for null only, or for the items of an empty container.
-/
theorem conforms_infer
    {budget : Nat}
    {name : String}
    {value : Json}
    {shape : Shape}
    (hValue : value.WellFormed)
    (hNames : DistinctNames name value)
    (h : (infer budget name value .empty).result = some shape) :
    let table := (infer budget name value .empty).table
    Conforms table (fun _ => True) value shape ∧
      Conforms table (· = .null) value shape := by
  intro table
  have hTable : (find budget name value).IsIn table := by
    intro r hr
    simp only [table, infer_eq_onto]
    exact Table.get?_insertAll_of_mem
      ((placed_find budget name value).nodup hValue hNames) hr
  rw [infer_eq_onto] at h
  have hConforms := conforms_find budget name hValue h hTable
  exact ⟨hConforms.mono fun _ _ => trivial, hConforms⟩

------------------------------------------------------------
-- Laps
------------------------------------------------------------

/- The members of an object with one value. -/
def lapMembers (time : Json) : List (RawText × Json) :=
  [(.ofString "time", time)]

/- The members of an object with an array and an object in it. -/
def raceMembers : List (RawText × Json) :=
  [(.ofString "best", .object (lapMembers (.int 90))),
    (.ofString "laps", .array [.object (lapMembers .null)])]

/- No record is found at a leaf. -/
theorem not_visits_leaf
    {name n : String}
    {value w : Json}
    {shape : Shape}
    {place : List Step}
    (hLeaf : IsLeaf value shape)
    (h : Visits name value place n w) : ¬ IsRecordObject w := by
  intro hw
  cases hLeaf with
  | object =>
      cases h with
      | here => exact hw.1 rfl
      | entry _ hFirst => cases hFirst.1
      | member _ hMember => cases mem_of_mem_namedMembers hMember
  | _ =>
      cases h
      exact hw

/- An object with a leaf for its value is the only one in it. -/
theorem visits_lap
    {name n : String}
    {time w : Json}
    {shape : Shape}
    {place : List Step}
    (hLeaf : IsLeaf time shape)
    (h : Visits name (.object (lapMembers time)) place n w)
    (hw : IsRecordObject w) : place = [] ∧ n = name := by
  cases h with
  | here => exact ⟨rfl, rfl⟩
  | entry hMapping => exact absurd hMapping.1 (Nat.not_succ_le_self 1)
  | @member _ _ _ _ m _ _ _ hMember hBelow =>
      have hTime : m = (.ofString "time", time) :=
        List.mem_singleton.1 (mem_of_mem_namedMembers hMember)
      rw [hTime] at hBelow
      exact absurd hw (not_visits_leaf hLeaf hBelow)

/- The places of the three objects and their names. -/
def racePlaces : List (List Step × String) :=
  [([], "Race"),
    ([.member (.ofString "best")], "RaceBest"),
    ([.member (.ofString "laps"), .item], "RaceLapsItem")]

/- The members of the outer object, in order. -/
theorem namedMembers_race :
    namedMembers raceMembers =
      [("Best", .ofString "best",
          .object (lapMembers (.int 90))),
        ("Laps", .ofString "laps",
          .array [.object (lapMembers .null)])] := by
  have hSorted : Json.sortMembers raceMembers = raceMembers :=
    List.mergeSort_of_pairwise (by decide)
  rw [namedMembers, hSorted]
  rfl

/- The outer object is no mapping. -/
theorem not_isMapping_race : ¬ IsMapping raceMembers := by
  intro hMapping
  have hKey := hMapping.2 _ List.mem_cons_self
  rcases hKey (.scalar 'b') (by decide) with ⟨c, hEq, hDigit⟩
  cases hEq
  exact absurd hDigit.2 (by decide)

/- The outer object and two inner ones get records. -/
theorem visits_race
    {n : String}
    {w : Json}
    {place : List Step}
    (h : Visits "Race" (.object raceMembers) place n w)
    (hw : IsRecordObject w) : (place, n) ∈ racePlaces := by
  cases h with
  | here => exact List.mem_cons_self
  | entry hMapping => exact absurd hMapping not_isMapping_race
  | member _ hMember hBelow =>
      rw [namedMembers_race] at hMember
      rcases List.mem_pair.1 hMember with hEq | hEq
      · cases hEq
        rcases visits_lap (.int 90) hBelow hw with ⟨rfl, rfl⟩
        decide
      · cases hEq
        cases hBelow with
        | here => exact hw.elim
        | item hItem =>
            rcases visits_lap .null hItem hw with ⟨rfl, rfl⟩
            decide

theorem distinctNames_race :
    DistinctNames "Race" (.object raceMembers) := by
  intro place other n v w hv hRecord hw hOther
  have hPlaces : ∀ x ∈ racePlaces, ∀ y ∈ racePlaces,
      x.2 = y.2 → x.1 = y.1 := by
    decide
  exact hPlaces _ (visits_race hv hRecord) _
    (visits_race hw hOther) rfl

/- An object with one value gets a record. -/
theorem result_find_lap
    (budget : Nat)
    {time : Json}
    {shape : Shape}
    (hTime : ∀ name, (find budget name time).result = some shape)
    (name : String) :
    (find (budget + 2) name (.object (lapMembers time))).result =
      some (.record name) := by
  have hSorted : Json.sortMembers (lapMembers time) =
      lapMembers time :=
    List.mergeSort_singleton _
  have hFind : find (budget + 2) name (.object (lapMembers time)) =
      findRecord (find budget) name (lapMembers time) := by
    rw [find, hSorted]
    rfl
  rw [hFind]
  simp only [findRecord, lapMembers, findFields, Finding.andThen,
    hTime]
  rfl

/- The outer object gets a record. -/
theorem result_infer_race :
    (infer 9 "Race" (.object raceMembers) .empty).result =
      some (.record "Race") := by
  have hSorted : Json.sortMembers raceMembers = raceMembers :=
    List.mergeSort_of_pairwise (by decide)
  have hBest : ∀ name,
      (find 7 name (.object (lapMembers (.int 90)))).result =
        some (.record name) :=
    result_find_lap 5 fun _ => rfl
  have hLaps : ∀ name,
      (find 7 name (.array [.object (lapMembers .null)])).result =
        some (.list (.record (name ++ itemSuffix))) :=
    fun name => congrArg (Option.map list)
      (result_find_lap 4 (fun _ => rfl) (name ++ itemSuffix))
  have hFind : find 9 "Race" (.object raceMembers) =
      findRecord (find 7) "Race" raceMembers := by
    rw [find, hSorted]
    rfl
  rw [infer_eq_onto, hFind]
  simp only [Finding.onto, findRecord, raceMembers, findFields,
    Finding.andThen, hBest, hLaps]
  rfl

/- The object conforms to its record. -/
theorem conforms_infer_race :
    let found := infer 9 "Race" (.object raceMembers) .empty
    found.result = some (.record "Race") ∧
      Conforms found.table (· = .null) (.object raceMembers)
        (.record "Race") := by
  intro found
  have hLap : ∀ time : Json, time.WellFormed →
      (Json.object (lapMembers time)).WellFormed :=
    fun time hTime => .object (List.nodup_singleton _) (by
      simpa [lapMembers] using hTime)
  have hLaps : ∀ v ∈ [Json.object (lapMembers .null)],
      v.WellFormed := by
    simpa using hLap .null .null
  have hKeys : (raceMembers.map Prod.fst).Nodup := by
    decide
  have hValue : (Json.object raceMembers).WellFormed :=
    .object hKeys (by
      simpa [raceMembers] using
        ⟨hLap (.int 90) (.int 90), .array hLaps⟩)
  exact ⟨result_infer_race,
    (conforms_infer hValue distinctNames_race
      result_infer_race).2⟩

end Shape

end TypedClient
