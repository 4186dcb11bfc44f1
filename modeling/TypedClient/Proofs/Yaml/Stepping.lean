import TypedClient.Proofs.Yaml.SharedPlain
import TypedClient.Proofs.Yaml.SharedString
import TypedClient.Proofs.Yaml.ScanFault

/-
  This file follows the scanner over tokens as JSON writes them:
  brackets, commas, strings, words, and keys with their colons.
  No such token opens a block, and no key has to be one.

  Key definitions include:
    * `Yaml.Scanner.At`
    * `Yaml.Scanner.Near`
    * `Yaml.Scanner.Leads`

  Key theorems include:
    * `Yaml.Scanner.exists_step`
    * `Yaml.Scanner.leads_open`
    * `Yaml.Scanner.leads_close`
    * `Yaml.Scanner.leads_comma`
-/

namespace TypedClient

namespace Yaml

namespace Scanner

------------------------------------------------------------
-- Where a scanner is
------------------------------------------------------------

/-
  A scanner in front of a text, with its tokens so far, backwards.
  No block is open, and no key has to be one.
-/
structure At
    (s : Scanner)
    (level : Nat)
    (text : List Char)
    (ts : List Token) : Prop where
  sound : s.cursor.IsSound
  rest : s.cursor.rest = text
  level : s.flowLevel = level
  indent : s.indent = -1
  keys : ∀ k ∈ s.keys, k.2.required = false
  tokens : s.tokens = ts
  count : s.count = ts.length

theorem at_start (text : List Char) :
    (start text).At 0 text [] where
  sound := Cursor.isSound_start text
  rest := rfl
  level := rfl
  indent := rfl
  keys := fun _ hK => nomatch hK
  tokens := rfl
  count := rfl

theorem At.inBlock
    {s : Scanner}
    {level : Nat}
    {text : List Char}
    {ts : List Token}
    (h : s.At level text ts)
    (hLevel : level ≠ 0) : s.inBlock = false := by
  rw [Scanner.inBlock, h.level]
  exact decide_eq_false hLevel

/- A scanner with blanks and line breaks in front of a text. -/
def Near
    (s : Scanner)
    (level : Nat)
    (rest : List Char)
    (tokens : List Token) : Prop :=
  ∃ g, IsFolded g ∧ s.At level (g ++ rest) tokens

/- A scanner in front of a text is near it. -/
theorem At.near
    {s : Scanner}
    {level : Nat}
    {g rest : List Char}
    {tokens : List Token}
    (hFolded : IsFolded g)
    (h : s.At level (g ++ rest) tokens) : s.Near level rest tokens :=
  ⟨g, hFolded, h⟩

/-
  The scan goes on from one scanner to another, in no more steps
  than characters are passed.
-/
def Leads (s t : Scanner) : Prop :=
  ∃ n, n + t.cursor.rest.length ≤ s.cursor.rest.length ∧
    ∀ fuel, Token.scanFrom s (n + fuel) = Token.scanFrom t fuel

theorem Leads.trans
    {s t u : Scanner}
    (h : s.Leads t)
    (hNext : t.Leads u) : s.Leads u := by
  rcases h with ⟨m, hM, hScan⟩
  rcases hNext with ⟨n, hN, hMore⟩
  refine ⟨m + n, by omega, fun fuel => ?_⟩
  rw [Nat.add_assoc, hScan, hMore]

theorem leads_of_step
    {s t : Scanner}
    (h : s.step = .ok t)
    (hToken : t.tokens.head? ≠ some .streamEnd)
    (hPassed : t.cursor.rest.length < s.cursor.rest.length) :
    s.Leads t := by
  refine ⟨1, by omega, fun fuel => ?_⟩
  rw [Nat.add_comm, scanFrom_succ, h]
  exact if_neg hToken

------------------------------------------------------------
-- Up to the next token
------------------------------------------------------------

/- What may follow space in front of a token of JSON. -/
def StartsToken (rest : List Char) : Prop :=
  ∀ ch ∈ rest.head?,
    ch ≠ ' ' ∧ isBreak ch = false ∧ ch ≠ '#' ∧ ch ≠ '\uFEFF'

theorem StartsToken.stopsFold
    {rest : List Char}
    (h : StartsToken rest) : StopsFold rest :=
  fun ch hCh => ⟨(h ch hCh).1, (h ch hCh).2.1⟩

variable {s : Scanner}
variable {level : Nat}
variable {tokens : List Token}

/- A scanner at another place. -/
def placed (s : Scanner) (c : Cursor) (allow : Bool) : Scanner :=
  { s with cursor := c, allowKey := allow }

/- No comment starts in front of a token. -/
theorem skipComment_folded
    {c : Cursor}
    {g rest : List Char}
    (hFolded : IsFolded g)
    (hStarts : StartsToken rest)
    (h : c.rest = g ++ rest) : c.skipComment = c := by
  refine if_neg fun hMark => ?_
  cases g with
  | nil =>
      cases rest with
      | nil =>
          rw [Cursor.head, h] at hMark
          cases hMark
      | cons ch rest =>
          rw [Cursor.head_of_rest h] at hMark
          exact (hStarts ch rfl).2.2.1 hMark
  | cons ch g =>
      rw [Cursor.head_of_rest h] at hMark
      rcases hFolded ch List.mem_cons_self with rfl | rfl | rfl
      · cases hMark
      · cases hMark
      · cases hMark

/- One line in front of a token is passed. -/
theorem toNextToken_succ
    {c : Cursor}
    (hSkip : (s.cursor.skip (· = ' ')).skipComment = c)
    (fuel : Nat) :
    s.toNextToken (fuel + 1) =
      if isBreak c.head then
        (s.placed c.lineBreak.2
          (s.inBlock || s.allowKey)).toNextToken fuel
      else s.placed c s.allowKey := by
  rw [toNextToken, hSkip]
  dsimp only
  by_cases hBreak : isBreak c.head = true
  · rw [if_pos hBreak, if_pos hBreak]
    cases hBlock : s.inBlock with
    | true =>
        have hMoved : (s.moved c.lineBreak.2).inBlock = true :=
          hBlock
        rw [if_pos hMoved]
        rfl
    | false =>
        have hMoved : ¬ (s.moved c.lineBreak.2).inBlock = true := by
          rw [show (s.moved c.lineBreak.2).inBlock = false
            from hBlock]
          exact Bool.false_ne_true
        rw [if_neg hMoved]
        rfl
  · rw [if_neg hBreak, if_neg hBreak]
    rfl

/- Blanks and line breaks in front of a token are passed. -/
theorem toNextToken_folded
    {g rest : List Char}
    (hFolded : IsFolded g)
    (hStarts : StartsToken rest)
    {fuel : Nat}
    (hFuel : g.length < fuel)
    (h : s.cursor.rest = g ++ rest) :
    ∃ c allow, s.toNextToken fuel = s.placed c allow ∧
      s.cursor.Passes g c ∧
      (s.inBlock = false → allow = s.allowKey) := by
  induction fuel generalizing g s with
  | zero => exact (Nat.not_lt_zero _ hFuel).elim
  | succ fuel ih =>
      rcases Scalar.span_blanks hStarts.stopsFold h with
        ⟨blanks, others, rfl, -, hBlanks, hRest, hStop⟩
      have hComment := skipComment_folded hFolded.of_append
        hStarts hRest
      rw [toNextToken_succ hComment]
      cases others with
      | nil =>
          rw [(hStarts.stopsFold.head hRest).2]
          exact ⟨_, _, rfl, (List.append_nil blanks).symm ▸ hBlanks,
            fun _ => rfl⟩
      | cons ch others =>
          have hOthers : IsFolded (ch :: others) :=
            hFolded.of_append
          rcases exists_lineBreak hOthers (hStop ch rfl) with
            ⟨first, more, hSplit, hShorter, hBreak⟩
          rcases hBreak _ rest hRest hStarts.stopsFold with
            ⟨hIsBreak, hLine⟩
          have hMore : IsFolded more :=
            IsFolded.of_append (hSplit ▸ hOthers)
          have hBehind : (s.placed _ (s.inBlock ||
              s.allowKey)).cursor.rest = more ++ rest :=
            hLine.rest_of_append
              (hRest.trans (by rw [hSplit, List.append_assoc]))
          have hMoreFuel : more.length < fuel := by
            simp only [List.length_append, List.length_cons]
              at hFuel
            omega
          rw [if_pos hIsBreak]
          rcases ih hMore hMoreFuel hBehind with
            ⟨d, allow, hNext, hEnd, hAllow⟩
          have hAll := hBlanks.trans (hLine.trans hEnd)
          rw [← hSplit] at hAll
          refine ⟨d, allow, hNext, hAll, fun hBlock => ?_⟩
          rw [hAllow hBlock]
          exact (congrArg (· || s.allowKey) hBlock).trans
            (Bool.false_or _)

/- No block is closed. -/
theorem unwind_of_indent
    (h : s.indent = -1)
    {column : Int}
    (hColumn : -1 ≤ column) : s.unwind column = s := by
  have hNot : ¬ column < s.indent := by
    rw [h]
    omega
  unfold unwind
  split
  · rw [unwindFrom, if_neg hNot]
  · rfl

/- A scanner without the possible keys that are too far behind. -/
def settled (s : Scanner) : Scanner :=
  { s with keys := s.keys.filter fun k => !s.isStale k.2 }

/- A key that does not have to be one may be forgotten. -/
theorem dropStale_of_keys
    (h : ∀ k ∈ s.keys, k.2.required = false) :
    s.dropStale = .ok s.settled := by
  refine if_neg fun hAny => ?_
  rcases List.any_eq_true.1 hAny with ⟨k, hK, hBoth⟩
  rw [h k hK, Bool.and_false] at hBoth
  cases hBoth

/-
  A step passes the space in front of a token, and forgets the
  keys that are too far behind.
-/
theorem exists_step
    {g rest : List Char}
    (hFolded : IsFolded g)
    (hStarts : StartsToken rest)
    (h : s.At level (g ++ rest) tokens) :
    ∃ r : Scanner, s.step = r.token ∧ r.At level rest tokens ∧
      (level ≠ 0 → r.allowKey = s.allowKey) ∧
      s.cursor.Passes g r.cursor ∧
      r.keys = s.keys.filter fun k => !r.isStale k.2 := by
  have hMark : s.skipMark = s := by
    unfold skipMark
    refine if_neg fun hBoth => ?_
    rw [Bool.and_eq_true, decide_eq_true_eq, decide_eq_true_eq]
      at hBoth
    have hHead := hBoth.2
    cases g with
    | nil =>
        cases rest with
        | nil =>
            rw [Cursor.head, h.rest] at hHead
            cases hHead
        | cons ch rest =>
            rw [Cursor.head_of_rest h.rest] at hHead
            exact (hStarts ch rfl).2.2.2 hHead
    | cons ch g =>
        rw [Cursor.head_of_rest h.rest] at hHead
        rcases hFolded ch List.mem_cons_self with rfl | rfl | rfl
        all_goals cases hHead
  have hFuel : g.length < s.cursor.left + 1 := by
    rw [h.sound.left, h.rest, List.length_append]
    omega
  rcases toNextToken_folded hFolded hStarts hFuel h.rest with
    ⟨c, allow, hNext, hPasses, hAllow⟩
  have hKeys : ∀ k ∈ (s.placed c allow).keys,
      k.2.required = false := h.keys
  refine ⟨(s.placed c allow).settled, ?_, ?_, ?_, hPasses, rfl⟩
  · have hIndent : (s.placed c allow).settled.indent = -1 :=
      h.indent
    rw [step, hMark, hNext, dropStale_of_keys hKeys]
    change (Scanner.unwind _ _).token = _
    rw [unwind_of_indent hIndent (by omega)]
  · exact {
      sound := h.sound.passes hPasses
      rest := (List.append_cancel_left
        (h.rest.symm.trans hPasses.rest)).symm
      level := h.level
      indent := h.indent
      keys := fun k hK => h.keys k (List.mem_filter.1 hK).1
      tokens := h.tokens
      count := h.count }
  · exact fun hLevel => hAllow (h.inBlock hLevel)

------------------------------------------------------------
-- Possible keys
------------------------------------------------------------

/- A scanner with other possible keys. -/
def keyed (s : Scanner) (ks : List (Nat × PossibleKey)) : Scanner :=
  { s with keys := ks }

/- The possible key of the current level is forgotten. -/
theorem exists_dropKey
    (h : ∀ k ∈ s.keys, k.2.required = false) :
    ∃ ks, s.dropKey = .ok (s.keyed ks) ∧
      ∀ k ∈ ks, k.2.required = false := by
  refine ⟨s.keys.filter fun k => k.1 ≠ s.flowLevel, ?_,
    fun k hK => h k (List.mem_filter.1 hK).1⟩
  refine if_neg fun hAny => ?_
  rcases List.any_eq_true.1 hAny with ⟨k, hK, hBoth⟩
  rw [h k hK, Bool.and_false] at hBoth
  cases hBoth

/- The key that may start where a scanner is. -/
def possibleKey (s : Scanner) : PossibleKey :=
  ⟨s.count, false, s.cursor.index, s.cursor.line, s.cursor.column⟩

/- A key that may start here is remembered first. -/
theorem exists_saveKey
    {text : List Char}
    (h : s.At level text tokens) :
    ∃ ks, s.saveKey = .ok (s.keyed ks) ∧
      (∀ k ∈ ks, k.2.required = false) ∧
      (s.allowKey = true →
        ∃ others, ks = (level, s.possibleKey) :: others) := by
  unfold saveKey
  cases hAllow : s.allowKey with
  | false =>
      exact ⟨s.keys, rfl, h.keys, fun hTrue => by cases hTrue⟩
  | true =>
      rcases exists_dropKey h.keys with ⟨ks, hDrop, hKs⟩
      have hRequired : (s.inBlock &&
          decide (s.indent = s.cursor.column)) = false := by
        rw [Bool.and_eq_false_iff, decide_eq_false_iff_not, h.indent]
        right
        omega
      refine ⟨(s.flowLevel, s.possibleKey) :: ks, ?_, ?_,
        fun _ => ⟨ks, by rw [h.level]⟩⟩
      · rw [if_pos rfl, hDrop]
        change Except.ok { s with keys := (s.flowLevel,
          ⟨s.count, s.inBlock && decide (s.indent = s.cursor.column),
            s.cursor.index, s.cursor.line, s.cursor.column⟩) ::
              ks } = _
        rw [hRequired]
        rfl
      · intro k hK
        rcases List.mem_cons.1 hK with rfl | hK
        · rfl
        · exact hKs k hK

------------------------------------------------------------
-- Tokens of one character
------------------------------------------------------------

theorem atSeparator_of_head
    {c : Cursor}
    {ch : Char}
    {rest : List Char}
    (h : c.rest = ch :: rest)
    (hHyphen : ch ≠ '-')
    (hPoint : ch ≠ '.') : c.atSeparator = false := by
  simp [Cursor.atSeparator, h, hHyphen, hPoint]

/- A scanner behind a token of one character. -/
theorem At.emit
    {ch : Char}
    {rest : List Char}
    {ts : List Token}
    (h : s.At level (ch :: rest) ts)
    (t : Token) :
    (s.emit 1 t).At level rest (t :: ts) ∧
      (s.emit 1 t).cursor.rest.length < s.cursor.rest.length := by
  have hPasses := Cursor.passes_next h.rest
  have hRest : (s.emit 1 t).cursor.rest = rest :=
    hPasses.rest_of_append h.rest
  constructor
  · exact {
      sound := h.sound.passes hPasses
      rest := hRest
      level := h.level
      indent := h.indent
      keys := h.keys
      tokens := congrArg (t :: ·) h.tokens
      count := congrArg (· + 1) h.count }
  · rw [hRest, h.rest]
    exact Nat.lt_succ_self _

/- A step to a token of one character leads on. -/
theorem leads_emit
    {u : Scanner}
    {ch : Char}
    {t : Token}
    {rest : List Char}
    {ts : List Token}
    (hStep : s.step = .ok (u.emit 1 t))
    (hAt : u.At level (ch :: rest) ts)
    (hPassed : u.cursor.rest.length ≤ s.cursor.rest.length)
    (hToken : t ≠ .streamEnd) :
    s.Leads (u.emit 1 t) ∧ (u.emit 1 t).At level rest (t :: ts) := by
  rcases hAt.emit t with ⟨hNext, hLength⟩
  refine ⟨leads_of_step hStep ?_ (by omega), hNext⟩
  rw [hNext.tokens]
  exact fun hSame => hToken (Option.some.inj hSame)

theorem startsToken_mark
    {ch : Char}
    (h : ch ∈ ['[', ']', '{', '}', ',', ':'])
    (rest : List Char) : StartsToken (ch :: rest) := by
  intro d hD
  cases hD
  simp only [List.mem_cons, List.not_mem_nil, or_false] at h
  rcases h with rfl | rfl | rfl | rfl | rfl | rfl
  all_goals decide

theorem length_le_of_passes
    {c d : Cursor}
    {cs : List Char}
    (h : c.Passes cs d) : d.rest.length ≤ c.rest.length := by
  rw [h.rest, List.length_append]
  exact Nat.le_add_left _ _

/- A bracket opens a collection, in which a key may start. -/
theorem leads_open
    {ch : Char}
    {t : Token}
    {rest : List Char}
    (hOpen : ch = '[' ∧ t = .flowSequenceStart ∨
      ch = '{' ∧ t = .flowMappingStart)
    (h : s.Near level (ch :: rest) tokens) :
    ∃ u : Scanner, s.Leads u ∧
      u.At (level + 1) rest (t :: tokens) ∧
        u.allowKey = true := by
  rcases h with ⟨g, hFolded, h⟩
  have hMark : ch ∈ ['[', ']', '{', '}', ',', ':'] := by
    rcases hOpen with ⟨rfl, -⟩ | ⟨rfl, -⟩
    · decide
    · decide
  rcases exists_step hFolded (startsToken_mark hMark rest) h with
    ⟨r, hStep, hR, -, hPasses, -⟩
  rcases exists_saveKey hR with ⟨ks, hSave, hKs, -⟩
  have hToken : r.token = r.openFlow t := by
    unfold token
    rcases hOpen with ⟨rfl, rfl⟩ | ⟨rfl, rfl⟩
    all_goals simp [Cursor.atEnd_of_rest hR.rest,
      Cursor.head_of_rest hR.rest,
      atSeparator_of_head hR.rest (by decide) (by decide)]
  let u : Scanner := { r.keyed ks with
    flowLevel := r.flowLevel + 1
    allowKey := true }
  have hOpened : s.step = .ok (u.emit 1 t) := by
    rw [hStep, hToken, openFlow, hSave]
    rfl
  have hU : u.At (level + 1) (ch :: rest) tokens := {
    sound := hR.sound
    rest := hR.rest
    level := congrArg (· + 1) hR.level
    indent := hR.indent
    keys := hKs
    tokens := hR.tokens
    count := hR.count }
  have hNot : t ≠ .streamEnd := by
    rcases hOpen with ⟨-, rfl⟩ | ⟨-, rfl⟩
    · exact Token.noConfusion
    · exact Token.noConfusion
  rcases leads_emit hOpened hU (length_le_of_passes hPasses) hNot
    with ⟨hLeads, hAt⟩
  exact ⟨u.emit 1 t, hLeads, hAt, rfl⟩

/- A bracket closes a collection. -/
theorem leads_close
    {ch : Char}
    {t : Token}
    {rest : List Char}
    (hClose : ch = ']' ∧ t = .flowSequenceEnd ∨
      ch = '}' ∧ t = .flowMappingEnd)
    (h : s.Near (level + 1) (ch :: rest) tokens) :
    ∃ u : Scanner, s.Leads u ∧ u.At level rest (t :: tokens) := by
  rcases h with ⟨g, hFolded, h⟩
  have hMark : ch ∈ ['[', ']', '{', '}', ',', ':'] := by
    rcases hClose with ⟨rfl, -⟩ | ⟨rfl, -⟩
    · decide
    · decide
  rcases exists_step hFolded (startsToken_mark hMark rest) h with
    ⟨r, hStep, hR, -, hPasses, -⟩
  rcases exists_dropKey hR.keys with ⟨ks, hDrop, hKs⟩
  have hToken : r.token = r.closeFlow t := by
    unfold token
    rcases hClose with ⟨rfl, rfl⟩ | ⟨rfl, rfl⟩
    all_goals simp [Cursor.atEnd_of_rest hR.rest,
      Cursor.head_of_rest hR.rest,
      atSeparator_of_head hR.rest (by decide) (by decide)]
  have hFlow := hR.inBlock (Nat.succ_ne_zero level)
  let u : Scanner := { r.keyed ks with
    flowLevel := r.flowLevel - 1
    allowKey := false }
  have hClosed : s.step = .ok (u.emit 1 t) := by
    rw [hStep, hToken, closeFlow, hFlow, hDrop]
    rfl
  have hU : u.At level (ch :: rest) tokens := {
    sound := hR.sound
    rest := hR.rest
    level := congrArg (· - 1) hR.level
    indent := hR.indent
    keys := hKs
    tokens := hR.tokens
    count := hR.count }
  have hNot : t ≠ .streamEnd := by
    rcases hClose with ⟨-, rfl⟩ | ⟨-, rfl⟩
    · exact Token.noConfusion
    · exact Token.noConfusion
  rcases leads_emit hClosed hU (length_le_of_passes hPasses) hNot
    with ⟨hLeads, hAt⟩
  exact ⟨u.emit 1 t, hLeads, hAt⟩

/- A comma separates two parts; behind it a key may start. -/
theorem leads_comma
    {rest : List Char}
    (h : s.Near level (',' :: rest) tokens) :
    ∃ u : Scanner, s.Leads u ∧
      u.At level rest (.flowEntry :: tokens) ∧
        u.allowKey = true := by
  rcases h with ⟨g, hFolded, h⟩
  rcases exists_step hFolded
    (startsToken_mark (by decide) rest) h with
    ⟨r, hStep, hR, -, hPasses, -⟩
  rcases exists_dropKey (s := r.allowing true) hR.keys with
    ⟨ks, hDrop, hKs⟩
  have hToken : r.token = r.flowEntry := by
    unfold token
    simp [Cursor.atEnd_of_rest hR.rest,
      Cursor.head_of_rest hR.rest,
      atSeparator_of_head hR.rest (by decide) (by decide)]
  let u : Scanner := (r.allowing true).keyed ks
  have hEntry : s.step = .ok (u.emit 1 .flowEntry) := by
    rw [hStep, hToken, flowEntry, hDrop]
    rfl
  have hU : u.At level (',' :: rest) tokens := {
    sound := hR.sound
    rest := hR.rest
    level := hR.level
    indent := hR.indent
    keys := hKs
    tokens := hR.tokens
    count := hR.count }
  rcases leads_emit hEntry hU (length_le_of_passes hPasses)
    Token.noConfusion with ⟨hLeads, hAt⟩
  exact ⟨u.emit 1 .flowEntry, hLeads, hAt, rfl⟩

end Scanner

end Yaml

end TypedClient
