import TypedClient.Proofs.Text.Utf8Reader

/-
  This file shows that the reader of UTF-8 accepts the encoding
  of every text as that text, and nothing else.

  Key definitions include:
    * `Text.utf8`
    * `Text.Encodes`

  Key theorems include:
    * `Text.utf8Strict?_eq_some_iff`
-/

namespace TypedClient

namespace Text

/- The UTF-8 encoding of text. -/
def utf8 (cs : List Char) : Bytes :=
  cs.flatMap String.utf8EncodeChar

variable {owed low high bits : Nat}
variable {bs : Bytes}
variable {cs : List Char}

------------------------------------------------------------
-- Encoded characters
------------------------------------------------------------

/- The bytes that encode a character, by their number. -/
inductive Encodes (c : Char) : Bytes → Prop
  | one {a : UInt8}
      (hA : a.toNat < 0x80)
      (h : c.toNat = a.toNat) : Encodes c [a]
  | two {a b : UInt8}
      (hA : 0xC2 ≤ a.toNat ∧ a.toNat < 0xE0)
      (hB : 0x80 ≤ b.toNat ∧ b.toNat ≤ 0xBF)
      (h : c.toNat = (a.toNat - 0xC0) * 64 + (b.toNat - 0x80)) :
      Encodes c [a, b]
  | three {a b d : UInt8}
      (hA : 0xE0 ≤ a.toNat ∧ a.toNat < 0xF0)
      (hB : (0x80 ≤ b.toNat ∧ b.toNat ≤ 0xBF) ∧
        (a.toNat = 0xE0 → 0xA0 ≤ b.toNat) ∧
        (a.toNat = 0xED → b.toNat ≤ 0x9F))
      (hD : 0x80 ≤ d.toNat ∧ d.toNat ≤ 0xBF)
      (h : c.toNat = ((a.toNat - 0xE0) * 64 +
        (b.toNat - 0x80)) * 64 + (d.toNat - 0x80)) :
      Encodes c [a, b, d]
  | four {a b d e : UInt8}
      (hA : 0xF0 ≤ a.toNat ∧ a.toNat < 0xF5)
      (hB : (0x80 ≤ b.toNat ∧ b.toNat ≤ 0xBF) ∧
        (a.toNat = 0xF0 → 0x90 ≤ b.toNat) ∧
        (a.toNat = 0xF4 → b.toNat ≤ 0x8F))
      (hD : 0x80 ≤ d.toNat ∧ d.toNat ≤ 0xBF)
      (hE : 0x80 ≤ e.toNat ∧ e.toNat ≤ 0xBF)
      (h : c.toNat = (((a.toNat - 0xF0) * 64 +
        (b.toNat - 0x80)) * 64 + (d.toNat - 0x80)) * 64 +
          (e.toNat - 0x80)) :
      Encodes c [a, b, d, e]

theorem toNat_ofNat_of_lt
    {n : Nat}
    (h : n < 256) : (UInt8.ofNat n).toNat = n := by
  rw [UInt8.toNat_ofNat', Nat.mod_eq_of_lt h]

/- A character is encoded by its encoding. -/
theorem encodes_utf8EncodeChar (c : Char) :
    Encodes c (String.utf8EncodeChar c) := by
  have hValid : c.toNat < 0xD800 ∨
      (0xDFFF < c.toNat ∧ c.toNat < 0x110000) := c.valid
  have hVal : c.val.toNat = c.toNat := rfl
  simp only [String.utf8EncodeChar, hVal]
  split
  next hOne =>
    have hA := toNat_ofNat_of_lt (n := c.toNat) (by omega)
    exact .one (by omega) (by omega)
  next =>
    split
    next hTwo =>
      have hA := toNat_ofNat_of_lt
        (n := c.toNat / 64 % 32 + 192) (by omega)
      have hB := toNat_ofNat_of_lt
        (n := c.toNat % 64 + 128) (by omega)
      exact .two (by omega) (by omega) (by omega)
    next =>
      split
      next hThree =>
        have hA := toNat_ofNat_of_lt
          (n := c.toNat / 4096 % 16 + 224) (by omega)
        have hB := toNat_ofNat_of_lt
          (n := c.toNat / 64 % 64 + 128) (by omega)
        have hD := toNat_ofNat_of_lt
          (n := c.toNat % 64 + 128) (by omega)
        exact .three (by omega) (by omega) (by omega) (by omega)
      next hFour =>
        have hA := toNat_ofNat_of_lt
          (n := c.toNat / 262144 % 8 + 240) (by omega)
        have hB := toNat_ofNat_of_lt
          (n := c.toNat / 4096 % 64 + 128) (by omega)
        have hD := toNat_ofNat_of_lt
          (n := c.toNat / 64 % 64 + 128) (by omega)
        have hE := toNat_ofNat_of_lt
          (n := c.toNat % 64 + 128) (by omega)
        exact .four (by omega) (by omega) (by omega) (by omega)
          (by omega)

theorem Encodes.length_pos
    {c : Char}
    {bytes : Bytes}
    (h : Encodes c bytes) : 0 < bytes.length := by
  cases h with
  | _ => exact Nat.succ_pos _

/- A character has one encoding. -/
theorem Encodes.unique
    {c : Char}
    {as bs : Bytes}
    (hA : Encodes c as)
    (hB : Encodes c bs) : as = bs := by
  cases hA with
  | @one a =>
      cases hB with
      | @one a' =>
          have hA : a = a' := UInt8.toNat_inj.1 (by omega)
          rw [hA]
      | _ => omega
  | @two a b =>
      cases hB with
      | @two a' b' =>
          have hA : a = a' := UInt8.toNat_inj.1 (by omega)
          have hB : b = b' := UInt8.toNat_inj.1 (by omega)
          rw [hA, hB]
      | _ => omega
  | @three a b d =>
      cases hB with
      | @three a' b' d' =>
          have hA : a = a' := UInt8.toNat_inj.1 (by omega)
          have hB : b = b' := UInt8.toNat_inj.1 (by omega)
          have hD : d = d' := UInt8.toNat_inj.1 (by omega)
          rw [hA, hB, hD]
      | _ => omega
  | @four a b d e =>
      cases hB with
      | @four a' b' d' e' =>
          have hA : a = a' := UInt8.toNat_inj.1 (by omega)
          have hB : b = b' := UInt8.toNat_inj.1 (by omega)
          have hD : d = d' := UInt8.toNat_inj.1 (by omega)
          have hE : e = e' := UInt8.toNat_inj.1 (by omega)
          rw [hA, hB, hD, hE]
      | _ => omega

/- An encoded character is read as that character. -/
theorem readFrom?_of_encodes
    {c : Char}
    {front : Bytes}
    (h : Encodes c front) :
    readFrom? .between (front ++ bs) =
      (readFrom? .between bs).map (c :: ·) := by
  cases h with
  | @one a hA hC =>
      rw [List.singleton_append, readFrom?_ascii hA,
        itemChar?_ofNat?_iff.2 hC, Option.bind_some]
  | @two a b hA hB hC =>
      show readFrom? .between (a :: b :: bs) = _
      rw [readFrom?_lead_two hA.1 hA.2, readFrom?_inside_last hB,
        itemChar?_ofNat?_iff.2 hC, Option.bind_some]
  | @three a b d hA hB hD hC =>
      show readFrom? .between (a :: b :: d :: bs) = _
      rcases readFrom?_lead_three (b :: d :: bs) hA.1 hA.2
        with ⟨low, high, hRead, hRange⟩
      rw [hRead, readFrom?_inside_more ((hRange _).2 hB),
        readFrom?_inside_last hD, itemChar?_ofNat?_iff.2 hC,
        Option.bind_some]
  | @four a b d e hA hB hD hE hC =>
      show readFrom? .between (a :: b :: d :: e :: bs) = _
      rcases readFrom?_lead_four (b :: d :: e :: bs)
        hA.1 hA.2 with ⟨low, high, hRead, hRange⟩
      rw [hRead, readFrom?_inside_more ((hRange _).2 hB),
        readFrom?_inside_more hD, readFrom?_inside_last hE,
        itemChar?_ofNat?_iff.2 hC, Option.bind_some]

------------------------------------------------------------
-- Well-formed bytes
------------------------------------------------------------

/- What is read inside a character whose last byte comes next. -/
theorem exists_last
    (h : readFrom? (.inside 1 low high bits) bs = some cs) :
    ∃ b back c ds, bs = b :: back ∧
      (low ≤ b.toNat ∧ b.toNat ≤ high) ∧
      c.toNat = bits * 64 + (b.toNat - 0x80) ∧
      cs = c :: ds ∧ readFrom? .between back = some ds := by
  cases bs with
  | nil => cases h
  | cons b back =>
      by_cases hRange : low ≤ b.toNat ∧ b.toNat ≤ high
      · rw [readFrom?_inside_last hRange,
          Option.bind_eq_some_iff] at h
        rcases h with ⟨c, hC, hRest⟩
        rcases Option.map_eq_some_iff.1 hRest with ⟨ds, hDs, rfl⟩
        exact ⟨b, back, c, ds, rfl, hRange,
          itemChar?_ofNat?_iff.1 hC, rfl, hDs⟩
      · rw [readFrom?_inside_of_not hRange] at h
        cases h

/- What is read inside a character that has more bytes. -/
theorem exists_more
    (h : readFrom? (.inside (owed + 2) low high bits) bs =
      some cs) :
    ∃ b back, bs = b :: back ∧
      (low ≤ b.toNat ∧ b.toNat ≤ high) ∧
      readFrom?
        (.inside (owed + 1) 0x80 0xBF
          (bits * 64 + (b.toNat - 0x80))) back = some cs := by
  cases bs with
  | nil => cases h
  | cons b back =>
      by_cases hRange : low ≤ b.toNat ∧ b.toNat ≤ high
      · rw [readFrom?_inside_more hRange] at h
        exact ⟨b, back, rfl, hRange, h⟩
      · rw [readFrom?_inside_of_not hRange] at h
        cases h

/- The bytes in front of a text that is read encode a character. -/
theorem exists_encodes
    {a : UInt8}
    (h : readFrom? .between (a :: bs) = some cs) :
    ∃ c front back ds, a :: bs = front ++ back ∧
      Encodes c front ∧ cs = c :: ds ∧
      readFrom? .between back = some ds := by
  by_cases hOne : a.toNat < 0x80
  · rw [readFrom?_ascii hOne, Option.bind_eq_some_iff] at h
    rcases h with ⟨c, hC, hRest⟩
    rcases Option.map_eq_some_iff.1 hRest with ⟨ds, hDs, rfl⟩
    exact ⟨c, [a], bs, ds, rfl,
      .one hOne (itemChar?_ofNat?_iff.1 hC), rfl, hDs⟩
  by_cases hTwo : 0xC2 ≤ a.toNat ∧ a.toNat < 0xE0
  · rw [readFrom?_lead_two hTwo.1 hTwo.2] at h
    rcases exists_last h with ⟨b, back, c, ds, rfl, hB, hC, hRest⟩
    exact ⟨c, [a, b], back, ds, rfl, .two hTwo hB hC, hRest⟩
  by_cases hThree : 0xE0 ≤ a.toNat ∧ a.toNat < 0xF0
  · rcases readFrom?_lead_three bs hThree.1 hThree.2 with
      ⟨low, high, hRead, hRange⟩
    rw [hRead] at h
    rcases exists_more h with ⟨b, bs, rfl, hB, h⟩
    rcases exists_last h with ⟨d, back, c, ds, rfl, hD, hC, hRest⟩
    exact ⟨c, [a, b, d], back, ds, rfl,
      .three hThree ((hRange _).1 hB) hD hC, hRest⟩
  by_cases hFour : 0xF0 ≤ a.toNat ∧ a.toNat < 0xF5
  · rcases readFrom?_lead_four bs hFour.1 hFour.2 with
      ⟨low, high, hRead, hRange⟩
    rw [hRead] at h
    rcases exists_more h with ⟨b, bs, rfl, hB, h⟩
    rcases exists_more h with ⟨d, bs, rfl, hD, h⟩
    rcases exists_last h with ⟨e, back, c, ds, rfl, hE, hC, hRest⟩
    exact ⟨c, [a, b, d, e], back, ds, rfl,
      .four hFour ((hRange _).1 hB) hD hE hC, hRest⟩
  · rw [readFrom?_no_lead (by omega)] at h
    cases h

/- An encoded text is read as that text. -/
theorem readFrom?_utf8 (cs : List Char) :
    readFrom? .between (utf8 cs) = some cs := by
  induction cs with
  | nil => rfl
  | cons c cs ih =>
      have hSplit : utf8 (c :: cs) =
          String.utf8EncodeChar c ++ utf8 cs := rfl
      rw [hSplit, readFrom?_of_encodes (encodes_utf8EncodeChar c),
        ih]
      rfl

/- Bytes that are read as a text are its encoding. -/
theorem eq_utf8_of_readFrom?
    (bytes : Bytes)
    (cs : List Char)
    (h : readFrom? .between bytes = some cs) :
    bytes = utf8 cs := by
  induction hLength : bytes.length using Nat.strongRecOn
    generalizing bytes cs with
  | ind n ih =>
      cases bytes with
      | nil =>
          cases h
          rfl
      | cons a bs =>
          rcases exists_encodes h with
            ⟨c, front, back, ds, hSplit, hFront, rfl, hBack⟩
          have hSame : front = String.utf8EncodeChar c :=
            hFront.unique (encodes_utf8EncodeChar c)
          have hShorter : back.length < n := by
            have hPos := hFront.length_pos
            rw [← hLength, hSplit, List.length_append]
            omega
          rw [hSplit, ih _ hShorter back ds hBack rfl, hSame]
          rfl

/- Bytes are UTF-8 of a text just if they are its encoding. -/
theorem utf8Strict?_eq_some_iff
    {bytes : Bytes}
    {cs : List Char} :
    utf8Strict? bytes = some cs ↔ bytes = utf8 cs := by
  have hSame : utf8Strict? bytes = readFrom? .between bytes := rfl
  rw [hSame]
  constructor
  · exact eq_utf8_of_readFrom? bytes cs
  · rintro rfl
    exact readFrom?_utf8 cs

end Text

end TypedClient
