import FilterPlan.Proofs.Attempts

set_option autoImplicit false

namespace FilterPlan

namespace Pipeline

variable {σ : Type} (pipeline : Pipeline σ)

def complaint (attempt : Nat) (answer : Except GeneratorError Plan) : Option String :=
  match pipeline.judge attempt answer with
  | .ok _ => none
  | .error rejection => some rejection.message

def Suits (plan : Plan) : Prop := ∀ leaf ∈ plan.leaves, pipeline.schema.contains leaf.filter = true

inductive Rejects (attempt : Nat) : Except GeneratorError Plan → PipelineError → Prop where
  | failed (message : String) :
      Rejects attempt (.error (.failed message)) (.planGeneration pipeline.name (attempt + 1) message)
  | plan (error : PlanError) : Rejects attempt (.error (.plan error)) (.plan error)
  -- The error names the first leaf, in document order, whose filter the schema does not have.
  | unknown (plan : Plan) (missing : PlacedLeaf)
      (found : (plan.places.find? fun placed => !pipeline.schema.contains placed.leaf.filter) = some missing) :
      Rejects attempt (.ok plan) (.plan (.unknownFilter missing.leaf.filter missing.path))

theorem suits_checked (plan : Plan) : pipeline.Checked plan ↔ pipeline.Suits plan := by
  rw [Checked, plan.check_filters_places, Suits, ← plan.places_leaves]
  cases found : plan.places.find? fun placed => !pipeline.schema.contains placed.leaf.filter with
  | none => simpa using found
  | some missing =>
      have among := List.mem_of_find?_eq_some found
      have unknown := List.find?_some found
      refine iff_of_false (by simp) fun suits => ?_
      simp [suits missing.leaf (List.mem_map_of_mem among)] at unknown

theorem judge_suits (attempt : Nat) (answer : Except GeneratorError Plan) (plan : Plan) :
    pipeline.judge attempt answer = .ok plan ↔ answer = .ok plan ∧ pipeline.Suits plan := by
  rw [← pipeline.suits_checked, Checked]
  rcases answer with error | proposed
  · cases error <;> simp [judge]
  · simp only [judge]
    cases checked : proposed.checkFilters pipeline.schema.contains with
    | ok _ =>
        simp only [Except.ok.injEq]
        constructor
        · rintro rfl
          exact ⟨rfl, checked⟩
        · exact And.left
    | error error =>
        refine iff_of_false (by simp) ?_
        rintro ⟨same, suits⟩
        rw [Except.ok.inj same, suits] at checked
        cases checked

theorem judge_rejection (attempt : Nat) (answer : Except GeneratorError Plan) (rejection : PipelineError) :
    pipeline.judge attempt answer = .error rejection ↔ pipeline.Rejects attempt answer rejection := by
  constructor
  · intro rejected
    rcases answer with error | plan
    · cases error <;> rw [← Except.error.inj rejected]
      · exact .failed _
      · exact .plan _
    · simp only [judge, plan.check_filters_places] at rejected
      cases found : plan.places.find? fun placed => !pipeline.schema.contains placed.leaf.filter with
      | none => simp [found] at rejected
      | some missing =>
          rw [found] at rejected
          rw [← Except.error.inj rejected]
          exact .unknown plan missing found
  · intro rejects
    cases rejects with
    | failed message => rfl
    | plan error => rfl
    | unknown plan missing found => simp only [judge, plan.check_filters_places, found]

section Bids

variable (question : String) (before : World σ)

def bid : Nat → Bid σ
  | 0 => pipeline.consulted (pipeline.request question 0 none) before
  | attempt + 1 =>
      let last := bid attempt
      pipeline.consulted (pipeline.request question (attempt + 1) (pipeline.complaint attempt last.answer)) last.after

def feedback : Nat → Option String
  | 0 => none
  | attempt + 1 => pipeline.complaint attempt (pipeline.bid question before attempt).answer

def worldBefore : Nat → World σ
  | 0 => before
  | attempt + 1 => (pipeline.bid question before attempt).after

def verdict (attempt : Nat) : Except PipelineError Plan :=
  pipeline.judge attempt (pipeline.bid question before attempt).answer

theorem bid_consulted (attempt : Nat) : pipeline.bid question before attempt =
    pipeline.consulted (pipeline.request question attempt (pipeline.feedback question before attempt))
      (pipeline.worldBefore question before attempt) := by
  cases attempt <;> rfl

def proposal (attempt : Nat) : List Event :=
  (if attempt > 0 then [.counted .planRetry] else []) ++
    [.planRequested (pipeline.bid question before attempt).request,
      .planProposed (pipeline.bid question before attempt).answer]

def closed (attempt : Nat) : List Event :=
  match pipeline.verdict question before attempt with
  | .ok _ => []
  | .error _ => [.counted .planFailure]

theorem propose_unlimited (engine : Engine σ) (unlimited : engine.deadline.limitMs = none) (attempt : Nat) :
    (pipeline.propose engine question attempt (pipeline.feedback question before attempt)).Does
      (pipeline.worldBefore question before attempt) fun result after journal =>
        result = .ok (pipeline.verdict question before attempt) ∧
          after = (pipeline.bid question before attempt).after ∧
          journal.map Entry.event = pipeline.proposal question before attempt := by
  rw [Action.Does, propose_outcome, Evaluation.timeout_unlimited _ unlimited, verdict, proposal, bid_consulted]
  refine ⟨rfl, rfl, ?_⟩
  dsimp only
  rw [inquiry, List.map_append, apply_ite (List.map Entry.event)]
  rfl

def toldFrom (attempt last : Nat) : List Event :=
  (List.range' attempt (last + 1 - attempt)).flatMap (pipeline.proposal question before) ++
    pipeline.closed question before last

theorem told_last (last : Nat) : pipeline.toldFrom question before last last =
    pipeline.proposal question before last ++ pipeline.closed question before last := by
  rw [toldFrom, Nat.add_sub_cancel_left]
  simp

theorem told_more (attempt last : Nat) (more : attempt < last) : pipeline.toldFrom question before attempt last =
    pipeline.proposal question before attempt ++ pipeline.toldFrom question before (attempt + 1) last := by
  obtain ⟨left, isLeft⟩ : ∃ left, last + 1 - attempt = left + 1 := ⟨last - attempt, by omega⟩
  have others : last + 1 - (attempt + 1) = left := by omega
  rw [toldFrom, toldFrom, isLeft, others, List.range'_succ, List.flatMap_cons, List.append_assoc]

/-- Requests from an attempt on, of which the last is the first whose answer is accepted, or one that has the number
`limit`. -/
structure BidsFrom (attempt limit last : Nat) : Prop where
  begun : attempt ≤ last
  allowed : last ≤ limit
  rejected : ∀ between, attempt ≤ between → between < last →
    ∃ rejection, pipeline.verdict question before between = .error rejection
  final : last = limit ∨ ∃ plan, pipeline.verdict question before last = .ok plan

theorem bids_last (limit last : Nat) (allowed : last ≤ limit)
    (final : last = limit ∨ ∃ plan, pipeline.verdict question before last = .ok plan) :
    pipeline.BidsFrom question before last limit last :=
  ⟨Nat.le_refl _, allowed, fun _ after sooner => absurd sooner (Nat.not_lt_of_le after), final⟩

theorem bids_sooner (attempt limit last : Nat) (rejection : PipelineError)
    (rejected : pipeline.verdict question before attempt = .error rejection)
    (bids : pipeline.BidsFrom question before (attempt + 1) limit last) :
    pipeline.BidsFrom question before attempt limit last := by
  refine ⟨Nat.le_of_succ_le bids.begun, bids.allowed, fun between after sooner => ?_, bids.final⟩
  by_cases here : between = attempt
  · exact ⟨rejection, here ▸ rejected⟩
  · exact bids.rejected between (by omega) sooner

theorem feedback_next (attempt : Nat) (rejection : PipelineError)
    (rejected : pipeline.verdict question before attempt = .error rejection) :
    pipeline.feedback question before (attempt + 1) = some rejection.message := by
  rw [verdict] at rejected
  rw [feedback, complaint, rejected]

def Bidden (attempt last : Nat) (result : Except PipelineError Plan) (after : World σ) (journal : Journal) : Prop :=
  result = pipeline.verdict question before last ∧ after = (pipeline.bid question before last).after ∧
    journal.map Entry.event = pipeline.toldFrom question before attempt last

section Unlimited

variable (engine : Engine σ) (unlimited : engine.deadline.limitMs = none)
include unlimited

theorem plan_for_last (retries attempt : Nat)
    (final : retries = 0 ∨ ∃ plan, pipeline.verdict question before attempt = .ok plan) :
    (pipeline.planFor engine question retries attempt (pipeline.feedback question before attempt)).Does
      (pipeline.worldBefore question before attempt) (pipeline.Bidden question before attempt attempt) := by
  have proposes := pipeline.propose_unlimited question before engine unlimited attempt
  have accepted (plan : Plan) (verdict : pipeline.verdict question before attempt = .ok plan) (journal : Journal)
      (isTold : journal.map Entry.event = pipeline.proposal question before attempt) :
      pipeline.Bidden question before attempt attempt (.ok plan) (pipeline.bid question before attempt).after journal := by
    refine ⟨verdict.symm, rfl, ?_⟩
    rw [isTold, pipeline.told_last, closed, verdict, List.append_nil]
  cases retries with
  | zero =>
      rw [planFor, Action.bind_does]
      apply Action.does_weaken proposes
      rintro _ _ journal ⟨rfl, rfl, isTold⟩
      dsimp only
      cases verdict : pipeline.verdict question before attempt with
      | ok plan =>
          rw [Action.pure_does, List.append_nil]
          exact accepted plan verdict journal isTold
      | error rejection =>
          rw [Action.bind_does, Action.count_does]
          dsimp only
          rw [Action.fail_does]
          refine ⟨verdict.symm, rfl, ?_⟩
          rw [List.map_append, isTold, pipeline.told_last, closed, verdict]
          rfl
  | succ retries =>
      obtain ⟨plan, verdict⟩ := final.resolve_left (Nat.succ_ne_zero retries)
      rw [planFor, Action.bind_does]
      apply Action.does_weaken proposes
      rintro _ _ journal ⟨rfl, rfl, isTold⟩
      dsimp only
      simp only [verdict]
      rw [Action.pure_does, List.append_nil]
      exact accepted plan verdict journal isTold

theorem plan_for_more (retries attempt last : Nat) (more : attempt < last) (rejection : PipelineError)
    (rejected : pipeline.verdict question before attempt = .error rejection)
    (later : (pipeline.planFor engine question retries (attempt + 1)
      (pipeline.feedback question before (attempt + 1))).Does (pipeline.worldBefore question before (attempt + 1))
      (pipeline.Bidden question before (attempt + 1) last)) :
    (pipeline.planFor engine question (retries + 1) attempt (pipeline.feedback question before attempt)).Does
      (pipeline.worldBefore question before attempt) (pipeline.Bidden question before attempt last) := by
  rw [planFor, Action.bind_does]
  apply Action.does_weaken (pipeline.propose_unlimited question before engine unlimited attempt)
  rintro _ _ journal ⟨rfl, rfl, isTold⟩
  dsimp only
  simp only [rejected]
  rw [← pipeline.feedback_next question before attempt rejection rejected]
  apply Action.does_weaken later
  rintro result after rest ⟨isVerdict, isLeft, areTold⟩
  refine ⟨isVerdict, isLeft, ?_⟩
  rw [List.map_append, isTold, areTold, pipeline.told_more question before attempt last more]

theorem plan_for_unlimited (retries attempt : Nat) :
    ∃ last, pipeline.BidsFrom question before attempt (attempt + retries) last ∧
      (pipeline.planFor engine question retries attempt (pipeline.feedback question before attempt)).Does
        (pipeline.worldBefore question before attempt) (pipeline.Bidden question before attempt last) := by
  induction retries generalizing attempt with
  | zero =>
      refine ⟨attempt, pipeline.bids_last question before _ _ (Nat.le_refl _) (Or.inl rfl), ?_⟩
      exact pipeline.plan_for_last question before engine unlimited 0 attempt (Or.inl rfl)
  | succ retries ih =>
      cases verdict : pipeline.verdict question before attempt with
      | ok plan =>
          refine ⟨attempt, pipeline.bids_last question before _ _ (Nat.le_add_right _ _) (Or.inr ⟨plan, verdict⟩), ?_⟩
          exact pipeline.plan_for_last question before engine unlimited _ attempt (Or.inr ⟨plan, verdict⟩)
      | error rejection =>
          obtain ⟨last, bids, does⟩ := ih (attempt + 1)
          rw [Nat.add_right_comm] at bids
          refine ⟨last, pipeline.bids_sooner question before attempt _ last rejection verdict bids, ?_⟩
          exact pipeline.plan_for_more question before engine unlimited retries attempt last bids.begun rejection verdict
            does

end Unlimited

end Bids

end Pipeline

end FilterPlan
