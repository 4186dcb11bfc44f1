import TypedClient.Proofs.Sample.Run
import TypedClient.Proofs.Shape.Depth

/-
  This file says what becomes of the sample of an endpoint.  The
  reply alone decides the outcome: every reply has one, and no
  reply has two.  The table takes in the records of a complete
  inference and of nothing else.

  Key definitions include:
    * `Sample.Verdict`
    * `Sample.Settled`

  Key theorems include:
    * `Sample.ofReply_of_failure`
    * `Sample.ofReply_of_ok`
    * `Sample.outcome_ofReply_iff`
    * `Sample.settled_take`
-/

namespace TypedClient

namespace Sample

open Shape (Exceeds Table)

------------------------------------------------------------
-- Verdicts
------------------------------------------------------------

/-
  The outcome that a reply stands for: that of the first thing
  wrong with it, or `ok` if nothing is.
-/
inductive Verdict : Reply → Outcome → Prop where
  | transportError (error : String) (elapsed : Double) :
      Verdict (.failed error elapsed) .transportError
  | badStatus
      {r : Response}
      (hStatus : r.status ≠ 200) :
      Verdict (.response r) .badStatus
  | empty
      {r : Response}
      (hStatus : r.status = 200)
      (hBody : r.body = []) :
      Verdict (.response r) .empty
  | notJson
      {r : Response}
      {error : Json.Failure}
      (hComplete : IsComplete r)
      (hJson : Json.decodeBytes r.body = .error error) :
      Verdict (.response r) .notJson
  | notInferable
      {r : Response}
      {value : Json}
      (hComplete : IsComplete r)
      (hJson : Json.decodeBytes r.body = .ok value)
      (hDeep : Exceeds Shape.budget value) :
      Verdict (.response r) .notInferable
  | ok
      {r : Response}
      {value : Json}
      (hComplete : IsComplete r)
      (hJson : Json.decodeBytes r.body = .ok value)
      (hFlat : ¬ Exceeds Shape.budget value) :
      Verdict (.response r) .ok

/- Every reply stands for an outcome. -/
theorem exists_verdict (reply : Reply) : ∃ o, Verdict reply o := by
  cases reply with
  | failed error elapsed => exact ⟨_, .transportError error elapsed⟩
  | response r =>
      by_cases hStatus : r.status = 200
      case neg => exact ⟨_, .badStatus hStatus⟩
      by_cases hBody : r.body = []
      case pos => exact ⟨_, .empty hStatus hBody⟩
      have hComplete : IsComplete r := ⟨hStatus, hBody⟩
      cases hJson : Json.decodeBytes r.body with
      | error error => exact ⟨_, .notJson hComplete hJson⟩
      | ok value =>
          by_cases hDeep : Exceeds Shape.budget value
          · exact ⟨_, .notInferable hComplete hJson hDeep⟩
          · exact ⟨_, .ok hComplete hJson hDeep⟩

------------------------------------------------------------
-- One reply
------------------------------------------------------------

/- A reply that stands for a failure gives no shape and no record. -/
theorem ofReply_of_failure
    {reply : Reply}
    {o : Outcome}
    (h : Verdict reply o)
    (hFailure : o ≠ .ok)
    (e : Endpoint)
    (table : Table) :
    (ofReply e reply table).1.outcome = o ∧
      (ofReply e reply table).1.shape = none ∧
      (ofReply e reply table).2 = table := by
  cases h with
  | transportError error elapsed => exact ⟨rfl, rfl, rfl⟩
  | badStatus hStatus =>
      rw [ofReply, if_pos hStatus]
      exact ⟨rfl, rfl, rfl⟩
  | @empty r hStatus hBody =>
      have hEmpty : r.body.isEmpty = true :=
        List.isEmpty_iff.2 hBody
      rw [ofReply, if_neg (not_not_intro hStatus), if_pos hEmpty]
      exact ⟨rfl, rfl, rfl⟩
  | notJson hComplete hJson =>
      rw [hComplete.ofReply_eq, hJson]
      exact ⟨rfl, rfl, rfl⟩
  | notInferable hComplete hJson hDeep =>
      have hValue := Json.wellFormed_of_decodeBytes hJson
      have hNone := (Shape.result_inferResponse_eq_none_iff
        hValue e.funcName .empty).2 hDeep
      rw [hComplete.ofReply_eq, hJson]
      simp only [ofJson, hNone]
      exact ⟨rfl, rfl, trivial⟩
  | ok => exact (hFailure rfl).elim

/- A reply that stands for no failure gives its shape and records. -/
theorem ofReply_of_ok
    {reply : Reply}
    (h : Verdict reply .ok)
    (e : Endpoint)
    (table : Table) :
    ∃ value shape own, payload? reply = some value ∧
      Shape.inferResponse e.funcName value .empty =
        ⟨some shape, own⟩ ∧
      (ofReply e reply table).1.outcome = .ok ∧
      (ofReply e reply table).1.shape = some shape ∧
      (ofReply e reply table).2 = table.merge own := by
  cases h with
  | @ok r value hComplete hJson hFlat =>
      have hSome := (not_congr
        (Shape.result_inferResponse_eq_none_iff
          (Json.wellFormed_of_decodeBytes hJson) e.funcName
            .empty)).2 hFlat
      rcases Option.ne_none_iff_exists'.1 hSome with
        ⟨shape, hShape⟩
      refine ⟨value, shape, _,
        payload?_eq_some_iff.2 ⟨r, rfl, hComplete, hJson⟩,
        by rw [← hShape], ?_⟩
      rw [hComplete.ofReply_eq, hJson]
      simp only [ofJson, hShape]
      exact ⟨rfl, trivial, trivial⟩

/- The sample of a reply has the outcome that it stands for. -/
theorem outcome_of_verdict
    {reply : Reply}
    {o : Outcome}
    (h : Verdict reply o)
    (e : Endpoint)
    (table : Table) : (ofReply e reply table).1.outcome = o := by
  by_cases hOk : o = .ok
  · subst hOk
    rcases ofReply_of_ok h e table with ⟨_, _, _, _, _, hOut, _⟩
    exact hOut
  · exact (ofReply_of_failure h hOk e table).1

/- The outcome of a sample is the one that the reply stands for. -/
theorem outcome_ofReply_iff
    (e : Endpoint)
    (reply : Reply)
    (table : Table)
    (o : Outcome) :
    (ofReply e reply table).1.outcome = o ↔ Verdict reply o := by
  constructor
  · intro hOutcome
    rcases exists_verdict reply with ⟨p, hp⟩
    rw [← hOutcome, outcome_of_verdict hp]
    exact hp
  · exact fun h => outcome_of_verdict h e table

/- A reply with a value is too deep if there is no inference. -/
theorem verdict_notInferable_iff
    (reply : Reply)
    (funcName : String) :
    Verdict reply .notInferable ↔
      ∃ value, payload? reply = some value ∧
        (Shape.inferResponse funcName value .empty).result =
          none := by
  constructor
  · intro h
    cases h with
    | @notInferable r value hComplete hJson hDeep =>
        have hValue := Json.wellFormed_of_decodeBytes hJson
        exact ⟨value,
          payload?_eq_some_iff.2 ⟨r, rfl, hComplete, hJson⟩,
          (Shape.result_inferResponse_eq_none_iff hValue _
            _).2 hDeep⟩
  · rintro ⟨value, hPayload, hNone⟩
    have hValue := wellFormed_of_payload? hPayload
    rcases payload?_eq_some_iff.1 hPayload with
      ⟨r, rfl, hComplete, hJson⟩
    exact .notInferable hComplete hJson
      ((Shape.result_inferResponse_eq_none_iff hValue _ _).1
        hNone)

/- The sample of a reply has a shape if it is fine. -/
theorem isSome_shape_ofReply
    (e : Endpoint)
    (reply : Reply)
    (table : Table) :
    (ofReply e reply table).1.shape.isSome =
      (ofReply e reply table).1.isOk := by
  rcases exists_verdict reply with ⟨o, ho⟩
  by_cases hOk : o = .ok
  · subst hOk
    rcases ofReply_of_ok ho e table with
      ⟨_, _, _, _, _, hOutcome, hShape, _⟩
    simp [isOk, hOutcome, hShape]
  · rcases ofReply_of_failure ho hOk e table with
      ⟨hOutcome, hShape, _⟩
    simp [isOk, hOutcome, hShape, hOk]

------------------------------------------------------------
-- One sample
------------------------------------------------------------

/-
  What a reply to an endpoint makes of the table: a sample `s` and
  the table `after`.  The outcome is the one that the reply stands
  for, and a value is too deep if its inference has no result.
  Without a shape nothing changes; with one, the records of the
  inference on the empty table come before those of the table.
-/
structure Settled
    (e : Endpoint)
    (reply : Reply)
    (table : Table)
    (s : Sample)
    (after : Table) : Prop where
  outcome : ∀ o, s.outcome = o ↔ Verdict reply o
  tooDeep : s.outcome = .notInferable ↔
    ∃ value, payload? reply = some value ∧
      (Shape.inferResponse e.funcName value .empty).result = none
  shape : s.shape.isSome = true ↔ s.outcome = .ok
  failure : s.outcome ≠ .ok → after = table
  success : s.outcome = .ok →
    ∃ value shape own, payload? reply = some value ∧
      Shape.inferResponse e.funcName value .empty =
        ⟨some shape, own⟩ ∧
      s.shape = some shape ∧
      ∀ name, after.get? name =
        (own.get? name).or (table.get? name)

/-
  The sample of an endpoint is settled by the reply, whatever the
  server replies and whatever the table has.
-/
theorem settled_take
    (server : Server)
    (base : String)
    (e : Endpoint)
    (table : Table) :
    let taken := take server base e table
    Settled e (server (request base e).url) table taken.1
      taken.2 := by
  intro taken
  have hOutcome := outcome_ofReply_iff e
    (server (request base e).url) table
  constructor
  case outcome => exact hOutcome
  case tooDeep =>
    exact (hOutcome _).trans (verdict_notInferable_iff _ _)
  case shape =>
    have hShape := isSome_shape_ofReply e
      (server (request base e).url) table
    rw [show taken.1.shape.isSome = taken.1.isOk from hShape, isOk,
      decide_eq_true_iff]
  case failure =>
    intro hFailure
    exact (ofReply_of_failure ((hOutcome _).1 rfl) hFailure e
      table).2.2
  case success =>
    intro hOk
    rcases ofReply_of_ok ((hOutcome .ok).1 hOk) e table with
      ⟨value, shape, own, hPayload, hFound, _, hShape, hTable⟩
    refine ⟨value, shape, own, hPayload, hFound, hShape,
      fun name => ?_⟩
    rw [show taken.2 = table.merge own from hTable,
      Table.get?_merge]

end Sample

end TypedClient
