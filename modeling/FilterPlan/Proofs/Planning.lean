import FilterPlan.Proofs.Bids
import FilterPlan.Proofs.Course

set_option autoImplicit false

namespace FilterPlan

namespace Pipeline

variable {σ : Type} (pipeline : Pipeline σ)

section Bids

variable (question : String) (before : World σ)

theorem proposal_requests (attempt : Nat) : (pipeline.proposal question before attempt).filterMap Event.request? =
    [(pipeline.bid question before attempt).request] := by
  rw [proposal]
  by_cases again : attempt > 0
  · rw [if_pos again]
    rfl
  · rw [if_neg again]
    rfl

theorem proposal_metrics (attempt : Nat) : (pipeline.proposal question before attempt).filterMap Event.metric? =
    if attempt > 0 then [.planRetry] else [] := by
  rw [proposal]
  by_cases again : attempt > 0
  · rw [if_pos again, if_pos again]
    rfl
  · rw [if_neg again, if_neg again]
    rfl

theorem proposal_calls (attempt : Nat) : (pipeline.proposal question before attempt).filterMap Event.call? = [] := by
  rw [proposal]
  by_cases again : attempt > 0
  · rw [if_pos again]
    rfl
  · rw [if_neg again]
    rfl

theorem told_requests (last : Nat) : (pipeline.toldFrom question before 0 last).filterMap Event.request? =
    (List.range (last + 1)).map fun attempt => (pipeline.bid question before attempt).request := by
  have each : (fun attempt => (pipeline.proposal question before attempt).filterMap Event.request?) =
      fun attempt => [(pipeline.bid question before attempt).request] :=
    funext fun attempt => pipeline.proposal_requests question before attempt
  have none : (pipeline.closed question before last).filterMap Event.request? = [] := by
    rw [closed]
    cases pipeline.verdict question before last <;> rfl
  rw [toldFrom, List.filterMap_append, none, List.append_nil, List.filterMap_flatMap, each, ← List.map_eq_flatMap,
    Nat.sub_zero, ← List.range_eq_range']

theorem told_metrics (last : Nat) : (pipeline.toldFrom question before 0 last).filterMap Event.metric? =
    List.replicate last .planRetry ++ (pipeline.closed question before last).filterMap Event.metric? := by
  have each : (fun attempt => (pipeline.proposal question before attempt).filterMap Event.metric?) =
      fun attempt => if attempt > 0 then [.planRetry] else [] :=
    funext fun attempt => pipeline.proposal_metrics question before attempt
  rw [toldFrom, List.filterMap_append, List.filterMap_flatMap, each, Nat.sub_zero, ← List.range_eq_range',
    List.range_succ_eq_map, List.flatMap_cons, List.flatMap_map]
  simp [← List.map_eq_flatMap, List.map_const']

theorem told_calls (last : Nat) : (pipeline.toldFrom question before 0 last).filterMap Event.call? = [] := by
  have each : (fun attempt => (pipeline.proposal question before attempt).filterMap Event.call?) = fun _ => [] :=
    funext fun attempt => pipeline.proposal_calls question before attempt
  have none : (pipeline.closed question before last).filterMap Event.call? = [] := by
    rw [closed]
    cases pipeline.verdict question before last <;> rfl
  rw [toldFrom, List.filterMap_append, none, List.filterMap_flatMap, each]
  simp

structure Asked (last : Nat) (outcome : Outcome σ PipelineError Plan) (closing : List Metric) : Prop where
  left : outcome.world = (pipeline.bid question before last).after
  requests : outcome.journal.requests =
    (List.range (last + 1)).map fun attempt => (pipeline.bid question before attempt).request
  counted : outcome.journal.metrics = List.replicate last .planRetry ++ closing
  uncalled : ∀ entry ∈ outcome.journal, entry.event.call? = none

theorem told_asked (last : Nat) (outcome : Outcome σ PipelineError Plan)
    (left : outcome.world = (pipeline.bid question before last).after)
    (told : outcome.journal.map Entry.event = pipeline.toldFrom question before 0 last) :
    pipeline.Asked question before last outcome
      ((pipeline.closed question before last).filterMap Event.metric?) := by
  constructor
  case left => exact left
  case requests => rw [Journal.requests_events, told, pipeline.told_requests]
  case counted => rw [Journal.metrics_events, told, pipeline.told_metrics]
  case uncalled =>
    intro entry inside
    have none := pipeline.told_calls question before last
    rw [← told, List.filterMap_eq_nil_iff] at none
    exact none entry.event (List.mem_map_of_mem inside)

def Accepts (attempt : Nat) (plan : Plan) : Prop :=
  (pipeline.bid question before attempt).answer = .ok plan ∧ pipeline.Suits plan

theorem verdict_accepts (attempt : Nat) (plan : Plan) :
    pipeline.verdict question before attempt = .ok plan ↔ pipeline.Accepts question before attempt plan :=
  pipeline.judge_suits attempt _ plan

theorem verdict_rejects (attempt : Nat) (rejection : PipelineError) :
    pipeline.verdict question before attempt = .error rejection ↔
      pipeline.Rejects attempt (pipeline.bid question before attempt).answer rejection :=
  pipeline.judge_rejection attempt _ rejection

structure Planned (retries : Nat) (outcome : Outcome σ PipelineError Plan) : Prop where
  -- The requests are the same but for their number and the feedback, which is the text of the last rejection.
  first : (pipeline.bid question before 0).request =
    ⟨pipeline.name, pipeline.goal, question, pipeline.schema, pipeline.exemplar, 0, none⟩
  next : ∀ attempt rejection,
    pipeline.Rejects attempt (pipeline.bid question before attempt).answer rejection →
      (pipeline.bid question before (attempt + 1)).request =
        ⟨pipeline.name, pipeline.goal, question, pipeline.schema, pipeline.exemplar, attempt + 1,
          some rejection.message⟩
  accepted : ∀ attempt ≤ retries, ∀ plan,
    (∀ earlier < attempt, ∀ other, ¬ pipeline.Accepts question before earlier other) →
      pipeline.Accepts question before attempt plan →
        outcome.result = .ok plan ∧ pipeline.Asked question before attempt outcome []
  rejected : (∀ attempt ≤ retries, ∀ plan, ¬ pipeline.Accepts question before attempt plan) →
    ∃ rejection, pipeline.Rejects retries (pipeline.bid question before retries).answer rejection ∧
      outcome.result = .error rejection ∧ pipeline.Asked question before retries outcome [.planFailure]

theorem bids_accepted (limit last : Nat) (bids : pipeline.BidsFrom question before 0 limit last) (attempt : Nat)
    (allowed : attempt ≤ limit) (plan : Plan)
    (sooner : ∀ earlier < attempt, ∀ other, ¬ pipeline.Accepts question before earlier other)
    (accepts : pipeline.Accepts question before attempt plan) : last = attempt := by
  rcases Nat.lt_trichotomy last attempt with early | same | late
  · rcases bids.final with exhausted | ⟨other, accepted⟩
    · omega
    · exact absurd ((pipeline.verdict_accepts question before last other).mp accepted) (sooner last early other)
  · exact same
  · obtain ⟨rejection, rejected⟩ := bids.rejected attempt (Nat.zero_le _) late
    rw [(pipeline.verdict_accepts question before attempt plan).mpr accepts] at rejected
    cases rejected

theorem generate_planned (engine : Engine σ) (unlimited : engine.deadline.limitMs = none)
    (bounded : engine.config.planRetries < maxWord32) :
    pipeline.Planned question before engine.config.planRetries (pipeline.generatePlan engine question before) := by
  have allowed : min engine.config.planRetries (maxWord32 - 1) = engine.config.planRetries := by omega
  obtain ⟨last, bids, isVerdict, left, told⟩ :=
    pipeline.plan_for_unlimited question before engine unlimited engine.config.planRetries 0
  rw [Nat.zero_add] at bids
  have isPlanning : pipeline.generatePlan engine question before =
      pipeline.planFor engine question engine.config.planRetries 0 none before := by
    rw [generatePlan, allowed]
  have asked := pipeline.told_asked question before last _ left told
  rw [isPlanning]
  constructor
  case first => rfl
  case next =>
    intro attempt rejection rejects
    have rejected := (pipeline.verdict_rejects question before attempt rejection).mpr rejects
    rw [bid_consulted, pipeline.feedback_next question before attempt rejection rejected]
    rfl
  case accepted =>
    intro attempt allowed plan sooner accepts
    have isLast := pipeline.bids_accepted question before _ last bids attempt allowed plan sooner accepts
    subst isLast
    have accepted := (pipeline.verdict_accepts question before last plan).mpr accepts
    rw [closed, accepted] at asked
    exact ⟨isVerdict.trans accepted, asked⟩
  case rejected =>
    intro none
    have isLast : last = engine.config.planRetries := by
      rcases bids.final with exhausted | ⟨plan, accepted⟩
      · exact exhausted
      · exact absurd ((pipeline.verdict_accepts question before last plan).mp accepted) (none last bids.allowed plan)
    subst isLast
    cases verdict : pipeline.verdict question before engine.config.planRetries with
    | ok plan =>
        exact absurd ((pipeline.verdict_accepts question before _ plan).mp verdict) (none _ (Nat.le_refl _) plan)
    | error rejection =>
        have rejects := (pipeline.verdict_rejects question before _ rejection).mp verdict
        rw [closed, verdict] at asked
        exact ⟨rejection, rejects, isVerdict.trans verdict, asked⟩

end Bids

-- Planning asks again, each time with the reason of the last rejection, until a plan names filters of the schema only
-- or no retry is left. Only then is the plan executed.
theorem plans_until_accepted (pipeline : Pipeline σ) (engine : Engine σ) (question : String) (world : World σ)
    (unlimited : engine.deadline.limitMs = none) (bounded : engine.config.planRetries < maxWord32) :
    let planning := pipeline.generatePlan engine question world
    let outcome := pipeline.answer engine question world
    pipeline.Planned question world engine.config.planRetries planning ∧
      (∀ error, planning.result = .error error →
        outcome.result = .error error ∧ outcome.world = planning.world ∧ outcome.journal = planning.journal) ∧
      (∀ plan, planning.result = .ok plan →
        let execution := pipeline.execute engine plan planning.world
        outcome.result = execution.result ∧ outcome.world = execution.world ∧
          outcome.journal = planning.journal ++ execution.journal) := by
  intro planning outcome
  refine ⟨pipeline.generate_planned question world engine unlimited bounded, ?_, ?_⟩
  · intro error failed
    have same : planning = ⟨.error error, planning.world, planning.journal⟩ := by rw [← failed]
    have isOutcome : outcome = ⟨.error error, planning.world, planning.journal⟩ := Action.bind_failed same
    rw [isOutcome]
    exact ⟨rfl, rfl, rfl⟩
  · intro plan accepted
    have same : planning = ⟨.ok plan, planning.world, planning.journal⟩ := by rw [← accepted]
    let execution := pipeline.execute engine plan planning.world
    have isOutcome : outcome = ⟨execution.result, execution.world, planning.journal ++ execution.journal⟩ :=
      Action.bind_after same
    rw [isOutcome]
    exact ⟨rfl, rfl, rfl⟩

theorem suits_leaf (pipeline : Pipeline σ) (leaf : Leaf) :
    pipeline.Suits (.ofNode (.leaf leaf)) ↔ pipeline.registry.contains leaf.filter = true := by
  have leaves : (Plan.ofNode (.leaf leaf)).leaves = [leaf] := by
    rw [← Plan.places_leaves]
    rfl
  rw [Suits, leaves, List.forall_mem_singleton, schema_contains]

def learningPipeline : Pipeline Nat where
  name := "learning"
  goal := "Finds out what it may ask"
  registry := .only "f" busyResolver
  domain := .empty
  generator := fun _ calls =>
    ⟨if calls = 0 then .error (.failed "not yet")
      else if calls = 1 then .ok (.ofNode (.leaf ⟨"g", "x"⟩))
      else .ok (.ofNode (.leaf ⟨"f", "x"⟩)), calls + 1, 0⟩
  exemplar := none

theorem learning_contains (name : String) : learningPipeline.schema.contains name = decide ("f" = name) := by
  rw [schema_contains]
  exact Registry.only_contains "f" busyResolver name

theorem learning_suits (filter : String) :
    learningPipeline.Suits (.ofNode (.leaf ⟨filter, "x"⟩)) ↔ "f" = filter := by
  rw [suits_leaf, ← schema_contains, learning_contains, decide_eq_true_eq]

theorem learning_refused (attempt : Nat) (early : attempt < 2) (plan : Plan) :
    ¬ learningPipeline.Accepts "which?" ⟨0, 0⟩ attempt plan := by
  rintro ⟨answered, suits⟩
  by_cases first : attempt = 0
  · subst first
    cases answered
  · obtain rfl : attempt = 1 := by omega
    have isPlan : Plan.ofNode (.leaf ⟨"g", "x"⟩) = plan := Except.ok.inj answered
    rw [← isPlan, learning_suits] at suits
    simp at suits

theorem plans_until_accepted_learning :
    let planning := learningPipeline.generatePlan standalone "which?" ⟨0, 0⟩
    (standalone : Engine Nat).deadline.limitMs = none ∧ (standalone : Engine Nat).config.planRetries < maxWord32 ∧
      planning.result = .ok (.ofNode (.leaf ⟨"f", "x"⟩)) ∧ planning.world = ⟨3, 0⟩ ∧
      planning.journal.requests.map (fun request => (request.attempt, request.feedback)) =
        [(0, none), (1, some "plan generation for pipeline 'learning' failed after 1 attempt(s): not yet"),
          (2, some "plan references unknown filter 'g' at 'g'")] ∧
      planning.journal.metrics = [.planRetry, .planRetry] := by
  intro planning
  have unlimited : (standalone : Engine Nat).deadline.limitMs = none := rfl
  have bounded : (standalone : Engine Nat).config.planRetries < maxWord32 := by decide
  have planned := (learningPipeline.plans_until_accepted standalone "which?" ⟨0, 0⟩ unlimited bounded).1
  obtain ⟨isPlan, asked⟩ := planned.accepted 2 (Nat.le_refl 2) (.ofNode (.leaf ⟨"f", "x"⟩)) learning_refused
    ⟨rfl, (learning_suits "f").mpr rfl⟩
  have failed := planned.next 0 _ (.failed "not yet")
  have unknown := planned.next 1 _ (.unknown (.ofNode (.leaf ⟨"g", "x"⟩)) ⟨[.first (.filter "g")], ⟨"g", "x"⟩⟩ (by
    simp only [learning_contains]
    rfl))
  refine ⟨unlimited, bounded, isPlan, asked.left, ?_, asked.counted⟩
  have three : List.range (2 + 1) = [0, 0 + 1, 1 + 1] := rfl
  rw [asked.requests, three]
  simp only [List.map_cons, List.map_nil, failed, unknown]
  rfl

end Pipeline

end FilterPlan
