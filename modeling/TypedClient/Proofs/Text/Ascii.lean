import Mathlib.Tactic.Tauto
import TypedClient.Text.Casing
import TypedClient.Text.Split

/-
  This file holds what ASCII characters allow to conclude about
  the operations on text: lower case works on each of them alone,
  and the runs of a kind of characters hold that kind only.

  Key theorems include:
    * `Text.forall_ascii`
    * `Text.forall_alphanum`
    * `Text.lower_eq_map`
    * `Text.mem_runs`
    * `Text.exists_mem_runs_iff`
    * `Text.flatten_runs`
-/

namespace TypedClient

namespace Text

------------------------------------------------------------
-- Characters
------------------------------------------------------------

/- What holds of the first 128 characters holds of ASCII. -/
theorem forall_ascii
    {P : Char → Prop}
    (h : ∀ n : Fin 128, P (Char.ofNat n.val))
    {c : Char}
    (hc : c.toNat < 128) : P c := by
  have hChar := h ⟨c.toNat, hc⟩
  simpa using hChar

/- ASCII letters and digits are ASCII. -/
theorem toNat_lt_of_isAlphanum
    {c : Char}
    (h : c.isAlphanum = true) : c.toNat < 128 := by
  have hBound : ∀ high : UInt32, c.val ≤ high →
      high.toNat < 128 → c.toNat < 128 :=
    fun high hHigh hAscii =>
      Nat.lt_of_le_of_lt (UInt32.le_iff_toNat_le.1 hHigh) hAscii
  rcases Bool.or_eq_true_iff.1 h with hAlpha | hDigit
  · rcases Bool.or_eq_true_iff.1 hAlpha with hUpper | hLower
    · have hRange : c.val ≥ 'A'.val ∧ c.val ≤ 'Z'.val :=
        of_decide_eq_true hUpper
      exact hBound _ hRange.2 (by decide)
    · have hRange := (Bool.and_eq_true_iff.1 hLower).2
      exact hBound _ (of_decide_eq_true hRange) (by decide)
  · have hRange := (Bool.and_eq_true_iff.1 hDigit).2
    exact hBound _ (of_decide_eq_true hRange) (by decide)

theorem isAlphanum_of_isUpper
    {c : Char}
    (h : c.isUpper = true) : c.isAlphanum = true := by
  have hAlpha : c.isAlpha = true :=
    Bool.or_eq_true_iff.2 (Or.inl h)
  exact Bool.or_eq_true_iff.2 (Or.inl hAlpha)

theorem isAlphanum_of_isDigit
    {c : Char}
    (h : c.isDigit = true) : c.isAlphanum = true := by
  simp [Char.isAlphanum, h]

theorem isAlphanum_of_isUpper_or_isDigit
    {c : Char}
    (h : c.isUpper = true ∨ c.isDigit = true) :
    c.isAlphanum = true :=
  h.elim isAlphanum_of_isUpper isAlphanum_of_isDigit

theorem isAlphanum_of_isLower
    {c : Char}
    (h : c.isLower = true) : c.isAlphanum = true := by
  have hAlpha : c.isAlpha = true :=
    Bool.or_eq_true_iff.2 (Or.inr h)
  exact Bool.or_eq_true_iff.2 (Or.inl hAlpha)

/- What holds of the letters and digits of ASCII holds of all. -/
theorem forall_alphanum
    {P : Char → Prop}
    (h : ∀ n : Fin 128, (Char.ofNat n.val).isAlphanum = true →
      P (Char.ofNat n.val))
    {c : Char}
    (hc : c.isAlphanum = true) : P c :=
  forall_ascii (P := fun c => c.isAlphanum = true → P c) h
    (toNat_lt_of_isAlphanum hc) hc

theorem isLower_toLower
    {c : Char}
    (h : c.isUpper = true) : c.toLower.isLower = true :=
  forall_alphanum
    (P := fun c => c.isUpper = true → c.toLower.isLower = true)
    (by decide) (isAlphanum_of_isUpper h) h

theorem isLower_or_isDigit_toLower
    {c : Char}
    (h : c.isAlphanum = true) :
    c.toLower.isLower = true ∨ c.toLower.isDigit = true :=
  forall_alphanum
    (P := fun c =>
      c.toLower.isLower = true ∨ c.toLower.isDigit = true)
    (by decide) h

theorem isUpper_or_isDigit_toUpper
    {c : Char}
    (h : c.isAlphanum = true) :
    c.toUpper.isUpper = true ∨ c.toUpper.isDigit = true :=
  forall_alphanum
    (P := fun c =>
      c.toUpper.isUpper = true ∨ c.toUpper.isDigit = true)
    (by decide) h

------------------------------------------------------------
-- Lower case
------------------------------------------------------------

/- An ASCII character has one small form, wherever it stands. -/
theorem lowerBetween_of_ascii
    {c : Char}
    (h : c.toNat < 128)
    (before after : List Char) :
    lowerBetween before c after = [c.toLower] := by
  have hSigma : c ≠ 'Σ' := by
    intro hEq
    subst hEq
    exact absurd h (by decide)
  simp [lowerBetween, lowerChar, hSigma, h]

/- Lower case of ASCII text works on each character alone. -/
theorem lowerFrom_eq_map
    {cs : List Char}
    (h : ∀ c ∈ cs, c.toNat < 128)
    (before : List Char) :
    lowerFrom before cs = cs.map Char.toLower := by
  induction cs generalizing before with
  | nil => rfl
  | cons c cs ih =>
      have hHead := h c List.mem_cons_self
      have hTail := fun d hd => h d (List.mem_cons_of_mem c hd)
      simp only [lowerFrom, lowerBetween_of_ascii hHead,
        ih hTail, List.map_cons, List.singleton_append]

/- Lower case of ASCII text works on each character alone. -/
theorem lower_eq_map
    {cs : List Char}
    (h : ∀ c ∈ cs, c.toNat < 128) :
    lower cs = cs.map Char.toLower :=
  lowerFrom_eq_map h []

------------------------------------------------------------
-- Runs
------------------------------------------------------------

/- The runs behind an open run of a kind are of that kind. -/
theorem mem_runsFrom
    {α : Type}
    {p : α → Bool}
    {held as run : List α}
    (hHeld : ∀ a ∈ held, p a = true)
    (h : run ∈ runsFrom p held as) :
    run ≠ [] ∧ ∀ a ∈ run, p a = true := by
  induction as generalizing held with
  | nil =>
      simp only [runsFrom] at h
      split at h
      · simp at h
      · next hNe =>
          have hRun : run = held.reverse := by simpa using h
          subst hRun
          refine ⟨by simpa using hNe, fun a ha => ?_⟩
          exact hHeld a (List.mem_reverse.1 ha)
  | cons b bs ih =>
      simp only [runsFrom] at h
      split at h
      · next hb =>
          refine ih (fun a ha => ?_) h
          rcases List.mem_cons.1 ha with ha | ha
          · exact ha ▸ hb
          · exact hHeld a ha
      · split at h
        · exact ih (by simp) h
        · next hNe =>
            rcases List.mem_cons.1 h with h | h
            · subst h
              refine ⟨by simpa using hNe, fun a ha => ?_⟩
              exact hHeld a (List.mem_reverse.1 ha)
            · exact ih (by simp) h

/- A run of a kind is not empty and of that kind. -/
theorem mem_runs
    {α : Type}
    {p : α → Bool}
    {as run : List α}
    (h : run ∈ runs p as) :
    run ≠ [] ∧ ∀ a ∈ run, p a = true :=
  mem_runsFrom (by simp) h

/- The runs behind an open run hold what is of their kind. -/
theorem exists_mem_runsFrom_iff
    {α : Type}
    {p : α → Bool}
    {held as : List α}
    {a : α}
    (ha : p a = true) :
    (∃ run ∈ runsFrom p held as, a ∈ run) ↔
      a ∈ held ∨ a ∈ as := by
  induction as generalizing held with
  | nil =>
      rw [runsFrom]
      cases held with
      | nil => simp
      | cons b bs => simp [or_comm]
  | cons b bs ih =>
      rw [runsFrom]
      split
      next hb =>
        rw [ih, List.mem_cons, List.mem_cons]
        tauto
      next hb =>
        -- `a` is not `b`, which is of another kind
        have hNe : a ≠ b := fun hEq => hb (hEq ▸ ha)
        rw [List.mem_cons, or_iff_right hNe]
        split
        next hNone => rw [ih, List.isEmpty_iff.1 hNone]
        next => simp [ih]

/- The runs of a kind hold everything that is of it. -/
theorem exists_mem_runs_iff
    {α : Type}
    {p : α → Bool}
    {as : List α}
    {a : α}
    (ha : p a = true) :
    (∃ run ∈ runs p as, a ∈ run) ↔ a ∈ as := by
  rw [runs, exists_mem_runsFrom_iff ha,
    or_iff_right List.not_mem_nil]

/- The runs behind an open run, in one text. -/
theorem flatten_runsFrom
    {α : Type}
    (p : α → Bool)
    (held as : List α) :
    (runsFrom p held as).flatten = held.reverse ++ as.filter p := by
  induction as generalizing held with
  | nil =>
      rw [runsFrom]
      cases held with
      | nil => rfl
      | cons b bs => simp
  | cons b bs ih =>
      rw [runsFrom]
      split
      next hb => simp [ih, hb]
      next hb =>
        rw [List.filter_cons_of_neg hb]
        split
        next hNone => rw [ih, List.isEmpty_iff.1 hNone]
        next => rw [List.flatten_cons, ih, List.reverse_nil,
          List.nil_append]

/- The runs of a kind in one text are what is of that kind. -/
theorem flatten_runs
    {α : Type}
    (p : α → Bool)
    (as : List α) : (runs p as).flatten = as.filter p :=
  flatten_runsFrom p [] as

end Text

end TypedClient
