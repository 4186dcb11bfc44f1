import TypedClient.Json.Decode

/-
  This file states what makes a JSON value well formed, namely
  that no object in it has a key twice, and shows that every
  value that is read from text or bytes is well formed.

  Key definitions include:
    * `Json.WellFormed`

  Key theorems include:
    * `Json.nodup_keys_ofPairs`
    * `Json.wellFormed_of_decode`
    * `Json.wellFormed_of_decodeBytes`
-/

namespace TypedClient

namespace Json

------------------------------------------------------------
-- Well-formed values
------------------------------------------------------------

/- A value in which no object has a key twice. -/
inductive WellFormed : Json → Prop where
  | null : WellFormed .null
  | bool (b : Bool) : WellFormed (.bool b)
  | int (n : Int) : WellFormed (.int n)
  | double (x : Double) : WellFormed (.double x)
  | string (t : RawText) : WellFormed (.string t)
  | array
      {items : List Json}
      (hItems : ∀ v ∈ items, WellFormed v) :
      WellFormed (.array items)
  | object
      {members : List (RawText × Json)}
      (hKeys : (members.map Prod.fst).Nodup)
      (hValues : ∀ m ∈ members, WellFormed m.2) :
      WellFormed (.object members)

------------------------------------------------------------
-- Members
------------------------------------------------------------

/- Insertion brings in no other member. -/
theorem mem_insertMember
    {members : List (RawText × Json)}
    {key : RawText}
    {value : Json}
    {m : RawText × Json}
    (h : m ∈ insertMember members key value) :
    m = (key, value) ∨ m ∈ members := by
  induction members with
  | nil => simpa [insertMember] using h
  | cons n ns ih =>
      rw [insertMember] at h
      split at h
      · rcases List.mem_cons.1 h with h | h
        · exact Or.inl h
        · exact Or.inr (List.mem_cons_of_mem n h)
      · rcases List.mem_cons.1 h with h | h
        · exact Or.inr (h ▸ List.mem_cons_self)
        · exact (ih h).imp_right (List.mem_cons_of_mem n)

/- Insertion brings in no other key. -/
theorem mem_keys_insertMember
    {members : List (RawText × Json)}
    {key k : RawText}
    {value : Json}
    (h : k ∈ (insertMember members key value).map Prod.fst) :
    k = key ∨ k ∈ members.map Prod.fst := by
  rcases List.mem_map.1 h with ⟨m, hMem, rfl⟩
  rcases mem_insertMember hMem with hNew | hOld
  · exact Or.inl (congrArg Prod.fst hNew)
  · exact Or.inr (List.mem_map_of_mem hOld)

/- Insertion keeps keys distinct. -/
theorem nodup_keys_insertMember
    {members : List (RawText × Json)}
    (key : RawText)
    (value : Json)
    (h : (members.map Prod.fst).Nodup) :
    ((insertMember members key value).map Prod.fst).Nodup := by
  induction members with
  | nil => exact List.pairwise_singleton _ _
  | cons n ns ih =>
      rcases List.nodup_cons.1 h with ⟨hHead, hTail⟩
      rw [insertMember]
      split
      next hEq =>
        exact List.nodup_cons.2 ⟨hEq ▸ hHead, hTail⟩
      next hNe =>
        refine List.nodup_cons.2 ⟨fun hMem => ?_, ih hTail⟩
        rcases mem_keys_insertMember hMem with hNew | hOld
        · exact hNe hNew
        · exact hHead hOld

/- The members of an object have distinct keys. -/
theorem nodup_keys_ofPairs (pairs : List (RawText × Json)) :
    ((ofPairs pairs).map Prod.fst).Nodup := by
  have hFold : ∀ members : List (RawText × Json),
      (members.map Prod.fst).Nodup →
        ((pairs.foldl (fun ms p => insertMember ms p.1 p.2)
          members).map Prod.fst).Nodup := by
    induction pairs with
    | nil => exact fun members h => h
    | cons p ps ih =>
        exact fun members h =>
          ih _ (nodup_keys_insertMember p.1 p.2 h)
  exact hFold [] List.Pairwise.nil

/- The members of an object are among its pairs. -/
theorem mem_of_mem_ofPairs
    {pairs : List (RawText × Json)}
    {m : RawText × Json}
    (h : m ∈ ofPairs pairs) : m ∈ pairs := by
  have hFold : ∀ members : List (RawText × Json),
      m ∈ pairs.foldl (fun ms p => insertMember ms p.1 p.2)
          members →
        m ∈ members ∨ m ∈ pairs := by
    clear h
    induction pairs with
    | nil => exact fun members h => Or.inl h
    | cons p ps ih =>
        intro members h
        rcases ih _ h with h | h
        · rcases mem_insertMember h with h | h
          · exact Or.inr (h ▸ List.mem_cons_self)
          · exact Or.inl h
        · exact Or.inr (List.mem_cons_of_mem p h)
  simpa using hFold [] h

------------------------------------------------------------
-- Readers
------------------------------------------------------------

/- A number is well formed. -/
theorem wellFormed_of_numberFrom
    {negative : Bool}
    {t rest : RawText}
    {v : Json}
    (h : numberFrom negative t = .ok (v, rest)) :
    v.WellFormed := by
  simp only [numberFrom] at h
  split at h
  · simp at h
  · split at h
    · cases h
      exact .double _
    · split at h
      · split at h
        · simp at h
        · cases h
          exact .int _
      · cases h
        exact .double _

/- A scalar is well formed. -/
theorem wellFormed_of_scalarFrom
    {t rest : RawText}
    {v : Json}
    (h : scalarFrom t = .ok (v, rest)) : v.WellFormed := by
  have hWords : ∀ w ∈ words, w.2.WellFormed := by
    intro w hw
    simp only [words, List.mem_cons, List.not_mem_nil,
      or_false] at hw
    rcases hw with rfl | rfl | rfl | rfl | rfl | rfl
    · exact .null
    · exact .bool true
    · exact .bool false
    all_goals exact .double _
  unfold scalarFrom at h
  split at h
  next found hFound =>
    rcases List.exists_of_findSome?_eq_some hFound with
      ⟨w, hw, hBehind⟩
    rcases Option.map_eq_some_iff.1 hBehind with ⟨u, _, hu⟩
    cases h
    cases hu
    exact hWords w hw
  next hNone =>
    split at h
    · exact wellFormed_of_numberFrom h
    · exact wellFormed_of_numberFrom h

/- A reader of values reads well-formed ones only. -/
def ReadsWellFormed (reader : RawText → Reading Json) : Prop :=
  ∀ t v rest, reader t = .ok (v, rest) → v.WellFormed

/- A value is well formed if the containers in it are. -/
theorem readsWellFormed_valueFrom_succ
    {fuel : Nat}
    (hItems : ∀ depth,
      ReadsWellFormed (itemsFrom fuel depth []))
    (hMembers : ∀ depth,
      ReadsWellFormed (membersFrom fuel depth []))
    (depth : Nat) :
    ReadsWellFormed (valueFrom (fuel + 1) depth) := by
  intro t v rest h
  unfold valueFrom at h
  split at h
  · split at h
    · simp at h
    · cases h
      exact .string _
  · split at h
    · simp at h
    · split at h
      · cases h
        exact .array (by simp)
      · exact hItems _ _ _ _ h
  · split at h
    · simp at h
    · split at h
      · cases h
        exact .object List.Pairwise.nil (by simp)
      · exact hMembers _ _ _ _ h
  · exact wellFormed_of_scalarFrom h

/- An array is well formed if its items are. -/
theorem readsWellFormed_itemsFrom_succ
    {fuel depth : Nat}
    {read : List Json}
    (hValue : ReadsWellFormed (valueFrom fuel depth))
    (hItems : ∀ more, (∀ w ∈ more, w.WellFormed) →
      ReadsWellFormed (itemsFrom fuel depth more))
    (hRead : ∀ w ∈ read, w.WellFormed) :
    ReadsWellFormed (itemsFrom (fuel + 1) depth read) := by
  intro t v rest h
  unfold itemsFrom at h
  split at h
  · simp at h
  next w u hItem =>
    have hAll : ∀ x ∈ w :: read, x.WellFormed := by
      intro x hx
      rcases List.mem_cons.1 hx with hx | hx
      · exact hx ▸ hValue _ _ _ hItem
      · exact hRead x hx
    split at h
    · cases h
      exact .array fun x hx => hAll x (List.mem_reverse.1 hx)
    · exact hItems _ hAll _ _ _ h
    · simp at h

/- An object is well formed if its values are. -/
theorem readsWellFormed_membersFrom_succ
    {fuel depth : Nat}
    {read : List (RawText × Json)}
    (hValue : ReadsWellFormed (valueFrom fuel depth))
    (hMembers : ∀ more, (∀ m ∈ more, m.2.WellFormed) →
      ReadsWellFormed (membersFrom fuel depth more))
    (hRead : ∀ m ∈ read, m.2.WellFormed) :
    ReadsWellFormed (membersFrom (fuel + 1) depth read) := by
  intro t v rest h
  unfold membersFrom at h
  split at h
  · split at h
    · simp at h
    next key u hKey =>
      split at h
      · split at h
        · simp at h
        next w s hMember =>
          have hAll : ∀ m ∈ (key, w) :: read,
              m.2.WellFormed := by
            intro m hm
            rcases List.mem_cons.1 hm with hm | hm
            · exact hm ▸ hValue _ _ _ hMember
            · exact hRead m hm
          split at h
          · cases h
            apply WellFormed.object (nodup_keys_ofPairs _)
            intro m hm
            exact hAll m
              (List.mem_reverse.1 (mem_of_mem_ofPairs hm))
          · exact hMembers _ hAll _ _ _ h
          · simp at h
      · simp at h
  · simp at h

/-
  All three readers of nested values give well-formed values, if
  what they have read before is well formed.  The induction is on
  the number of calls that is left.
-/
theorem readsWellFormed (fuel : Nat) :
    (∀ depth, ReadsWellFormed (valueFrom fuel depth)) ∧
    (∀ depth read, (∀ w ∈ read, w.WellFormed) →
      ReadsWellFormed (itemsFrom fuel depth read)) ∧
    (∀ depth read, (∀ m ∈ read, m.2.WellFormed) →
      ReadsWellFormed (membersFrom fuel depth read)) := by
  induction fuel with
  | zero =>
      refine ⟨fun depth t v rest h => ?_,
        fun depth read _ t v rest h => ?_,
        fun depth read _ t v rest h => ?_⟩
      · simp [valueFrom] at h
      · simp [itemsFrom] at h
      · simp [membersFrom] at h
  | succ fuel ih =>
      rcases ih with ⟨ihValue, ihItems, ihMembers⟩
      refine ⟨fun depth => ?_, fun depth read hRead => ?_,
        fun depth read hRead => ?_⟩
      · exact readsWellFormed_valueFrom_succ
          (fun d => ihItems d [] (by simp))
          (fun d => ihMembers d [] (by simp)) depth
      · exact readsWellFormed_itemsFrom_succ (ihValue depth)
          (ihItems depth) hRead
      · exact readsWellFormed_membersFrom_succ (ihValue depth)
          (ihMembers depth) hRead

/- A decoded text is a well-formed value. -/
theorem wellFormed_of_decode
    {t : RawText}
    {v : Json}
    (h : decode t = .ok v) : v.WellFormed := by
  unfold decode at h
  split at h
  · simp at h
  next w rest hValue =>
    split at h
    · cases h
      exact (readsWellFormed _).1 _ _ _ _ hValue
    · simp at h

/- Decoded bytes are a well-formed value. -/
theorem wellFormed_of_decodeBytes
    {bytes : Text.Bytes}
    {v : Json}
    (h : decodeBytes bytes = .ok v) : v.WellFormed := by
  unfold decodeBytes at h
  split at h
  · exact wellFormed_of_decode h
  · simp at h

end Json

end TypedClient
