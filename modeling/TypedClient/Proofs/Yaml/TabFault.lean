import TypedClient.Proofs.Yaml.Stepping
import TypedClient.Yaml.Read

/-
  This file shows that no YAML token starts with a tab.  A tab
  that JSON takes for space therefore ends the reading.

  Key theorems include:
    * `Yaml.Scanner.step_tab`
    * `Yaml.read_tab`
-/

namespace TypedClient

namespace Yaml

namespace Scanner

variable {s : Scanner}
variable {level : Nat}
variable {rest : List Char}
variable {ts : List Token}

/- The scanner stops at a tab in front of a token. -/
theorem step_tab
    (h : s.Near level ('\t' :: rest) ts) :
    s.step = .error .malformed := by
  have hStarts : StartsToken ('\t' :: rest) := by
    intro ch hCh
    cases hCh
    decide
  rcases h with ⟨g, hFolded, h⟩
  rcases exists_step hFolded hStarts h with
    ⟨r, hStep, hR, -, -, -⟩
  have hPlain : r.startsPlain = false := by
    simp [startsPlain, Cursor.head_of_rest hR.rest, isGap,
      isSpace]
  rw [hStep, token]
  simp [Cursor.atEnd_of_rest hR.rest,
    Cursor.head_of_rest hR.rest, hPlain,
    atSeparator_of_head hR.rest (by decide) (by decide)]

theorem scanFrom_tab
    (h : s.Near level ('\t' :: rest) ts)
    (fuel : Nat) :
    Token.scanFrom s (fuel + 1) = (ts, some .malformed) := by
  have hTokens : s.tokens = ts := by
    rcases h with ⟨g, -, h⟩
    exact h.tokens
  rw [scanFrom_succ, step_tab h, hTokens]

end Scanner

/-
  A collection is refused that has a tab in front of its first
  item or key, whatever follows.
-/
theorem read_tab
    {g f rest : List Char}
    {ch : Char}
    (hFolded : IsFolded g)
    (hInside : IsFolded f)
    (hCh : ch = '[' ∨ ch = '{') :
    read (g ++ ch :: (f ++ '\t' :: rest)) = .error .malformed := by
  let text := g ++ ch :: (f ++ '\t' :: rest)
  have hOpen : ∃ t : Token,
      (ch = '[' ∧ t = .flowSequenceStart ∨
        ch = '{' ∧ t = .flowMappingStart) ∧
        Graph.ofTokens [t] (some .malformed) = .error .malformed := by
    rcases hCh with rfl | rfl
    · exact ⟨_, Or.inl ⟨rfl, rfl⟩, by with_unfolding_all rfl⟩
    · exact ⟨_, Or.inr ⟨rfl, rfl⟩, by with_unfolding_all rfl⟩
  rcases hOpen with ⟨t, hOpen, hGraph⟩
  have hNone : Graph.ofTokens [] (some .malformed) =
      .error .malformed := by with_unfolding_all rfl
  have hStart : (Scanner.start text).Near 0
      (ch :: (f ++ '\t' :: rest)) [] :=
    (Scanner.at_start text).near hFolded
  rcases Scanner.leads_open hOpen hStart with
    ⟨u, ⟨n, hN, hLeads⟩, hU, -⟩
  have hTab : u.Near 1 ('\t' :: rest) [t] := hU.near hInside
  have hLength : (Scanner.start text).cursor.rest.length =
      text.length := rfl
  rcases Nat.exists_eq_add_of_le
    (show n + 1 ≤ text.length + 2 by omega) with ⟨fuel, hFuel⟩
  have hScan : Token.scanFrom (Scanner.start text)
      (text.length + 2) = ([t], some .malformed) := by
    rw [hFuel, Nat.add_assoc, Nat.add_comm 1, hLeads]
    exact Scanner.scanFrom_tab hTab fuel
  by_cases hAllowed : text.all isAllowed = true
  · have hTokens : Token.scan text = ([t], some .malformed) := by
      rw [Token.scan, if_pos hAllowed]
      dsimp only
      rw [hScan]
      rfl
    rw [read, hTokens]
    exact congrArg (· >>= _) hGraph
  · have hTokens : Token.scan text = ([], some .malformed) :=
      if_neg hAllowed
    rw [read, hTokens]
    exact congrArg (· >>= _) hNone

end Yaml

end TypedClient
