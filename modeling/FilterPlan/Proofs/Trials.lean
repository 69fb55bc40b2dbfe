import FilterPlan.Proofs.Attempts

set_option autoImplicit false

namespace FilterPlan

namespace Evaluation

variable {σ : Type}

/-- Leaves are tried one after the other, each in the world that the one before has left, until one fails. -/
inductive Tried (evaluation : Evaluation σ) :
    List PlacedLeaf → World σ → List (Trial σ) → Except EvaluateError (List Stored) → Prop where
  | nothing (world : World σ) : Tried evaluation [] world [] (.ok [])
  | answered (trial : Trial σ) (registered : trial.Registered evaluation) (settled : trial.Settled evaluation)
      (rows : IdentitySet) (ended : (trial.ended evaluation).result = .ok rows) (rest : List PlacedLeaf)
      (trials : List (Trial σ)) (result : Except EvaluateError (List Stored))
      (later : Tried evaluation rest (trial.ended evaluation).world trials result) :
      Tried evaluation (trial.placed :: rest) trial.before (trial :: trials)
        (result.map fun others => (trial.placed.path, rows) :: others)
  | failed (trial : Trial σ) (registered : trial.Registered evaluation) (settled : trial.Settled evaluation)
      (source : ResolverError) (ended : (trial.ended evaluation).result = .error source) (rest : List PlacedLeaf) :
      Tried evaluation (trial.placed :: rest) trial.before [trial]
        (.error (.resolver trial.placed.leaf.filter trial.placed.path (trial.last + 1) source))

theorem resolve_all_unlimited (evaluation : Evaluation σ) (unlimited : evaluation.engine.deadline.limitMs = none)
    (used : evaluation.engine.Used) (leaves : List PlacedLeaf)
    (known : ∀ placed ∈ leaves, evaluation.knows placed = true) (world : World σ) :
    ∃ trials, (evaluation.resolveAll leaves).Does world fun result _ journal =>
      evaluation.Tried leaves world trials result ∧
        journal.own evaluation.engine.level = trials.flatMap (Trial.told evaluation) := by
  induction leaves generalizing world with
  | nil => exact ⟨[], .nothing world, rfl⟩
  | cons placed rest ih =>
      obtain ⟨filter, registered⟩ := evaluation.knows_find placed (known placed List.mem_cons_self)
      obtain ⟨last, settled, does⟩ := evaluation.resolve_unlimited unlimited used placed filter registered world
      let trial : Trial σ := ⟨placed, filter.resolver, world, last⟩
      have isRegistered : trial.Registered evaluation := ⟨filter, registered, rfl⟩
      cases ended : (trial.ended evaluation).result with
      | error source =>
          refine ⟨[trial], ?_⟩
          rw [resolveAll, Action.bind_does]
          apply Action.does_weaken does
          rintro _ after journal ⟨rfl, _, isTold⟩
          have isVerdict : trial.verdict evaluation = .error _ := trial.verdict_failed evaluation source ended
          rw [isVerdict]
          exact ⟨.failed trial isRegistered settled source ended rest, by simpa [Trial.told] using isTold⟩
      | ok rows =>
          obtain ⟨trials, others⟩ := ih (fun other inside => known other (List.mem_cons_of_mem _ inside))
            (trial.ended evaluation).world
          refine ⟨trial :: trials, ?_⟩
          rw [resolveAll, Action.bind_does]
          apply Action.does_weaken does
          rintro _ _ journal ⟨rfl, rfl, isTold⟩
          have isVerdict : trial.verdict evaluation = .ok rows := trial.verdict_answered evaluation rows ended
          rw [isVerdict]
          dsimp only
          rw [Action.bind_does]
          apply Action.does_weaken others
          rintro result after later ⟨tried, areTold⟩
          have answered := Tried.answered trial isRegistered settled rows ended rest trials result tried
          have told : (journal ++ later).own evaluation.engine.level =
              (trial :: trials).flatMap (Trial.told evaluation) := by
            rw [Journal.own_append, isTold, areTold]
            rfl
          cases result with
          | error error => exact ⟨answered, told⟩
          | ok results =>
              simp only [Action.pure_does, List.append_nil]
              exact ⟨answered, told⟩

theorem tried_begins (evaluation : Evaluation σ) (leaves : List PlacedLeaf) (world : World σ) (trials : List (Trial σ))
    (result : Except EvaluateError (List Stored)) (tried : evaluation.Tried leaves world trials result) :
    trials.map Trial.placed <+: leaves := by
  induction tried with
  | nothing world => exact List.nil_prefix
  | answered trial registered settled rows ended rest trials result _ ih => exact List.cons_prefix_cons.mpr ⟨rfl, ih⟩
  | failed trial registered settled source ended rest => exact List.cons_prefix_cons.mpr ⟨rfl, List.nil_prefix⟩

theorem tried_each (evaluation : Evaluation σ) (leaves : List PlacedLeaf) (world : World σ) (trials : List (Trial σ))
    (result : Except EvaluateError (List Stored)) (tried : evaluation.Tried leaves world trials result) :
    ∀ trial ∈ trials, trial.Registered evaluation ∧ trial.Settled evaluation := by
  induction tried with
  | nothing world => simp
  | answered trial registered settled rows ended rest trials result _ ih =>
      exact List.forall_mem_cons.mpr ⟨⟨registered, settled⟩, ih⟩
  | failed trial registered settled source ended rest => simpa using ⟨registered, settled⟩

theorem tried_chained (evaluation : Evaluation σ) (leaves : List PlacedLeaf) (world : World σ)
    (trials : List (Trial σ)) (result : Except EvaluateError (List Stored))
    (tried : evaluation.Tried leaves world trials result) : Trial.Chained evaluation world trials := by
  induction tried with
  | nothing world => trivial
  | answered trial registered settled rows ended rest trials result _ ih => exact ⟨rfl, ih⟩
  | failed trial registered settled source ended rest => exact ⟨rfl, trivial⟩

theorem tried_answered (evaluation : Evaluation σ) (leaves : List PlacedLeaf) (world : World σ)
    (trials : List (Trial σ)) (result : Except EvaluateError (List Stored))
    (tried : evaluation.Tried leaves world trials result) (results : List Stored) (answered : result = .ok results) :
    trials.map Trial.placed = leaves ∧
      trials.map (fun trial => (trial.placed.path, (trial.ended evaluation).result)) =
        results.map fun stored => (stored.1, .ok stored.2) := by
  induction tried generalizing results with
  | nothing world =>
      rw [← Except.ok.inj answered]
      exact ⟨rfl, rfl⟩
  | answered trial registered settled rows ended rest trials result _ ih =>
      cases result with
      | error error => cases answered
      | ok others =>
          obtain ⟨all, same⟩ := ih others rfl
          rw [← Except.ok.inj answered, List.map_cons, List.map_cons, List.map_cons, ended, all, same]
          exact ⟨rfl, rfl⟩
  | failed trial registered settled source ended rest => cases answered

theorem tried_paths (evaluation : Evaluation σ) (leaves : List PlacedLeaf) (world : World σ)
    (trials : List (Trial σ)) (result : Except EvaluateError (List Stored))
    (tried : evaluation.Tried leaves world trials result) (results : List Stored) (answered : result = .ok results) :
    results.map Prod.fst = leaves.map PlacedLeaf.path := by
  obtain ⟨all, same⟩ := evaluation.tried_answered leaves world trials result tried results answered
  have paths := congrArg (List.map Prod.fst) same
  rw [← all]
  simpa [Function.comp_def] using paths.symm

theorem tried_failed (evaluation : Evaluation σ) (leaves : List PlacedLeaf) (world : World σ)
    (trials : List (Trial σ)) (result : Except EvaluateError (List Stored))
    (tried : evaluation.Tried leaves world trials result) (error : EvaluateError) (failed : result = .error error) :
    ∃ before trial source, trials = before ++ [trial] ∧
      (∀ earlier ∈ before, ∃ rows, (earlier.ended evaluation).result = .ok rows) ∧
      (trial.ended evaluation).result = .error source ∧
      error = .resolver trial.placed.leaf.filter trial.placed.path (trial.last + 1) source := by
  induction tried with
  | nothing world => cases failed
  | answered trial registered settled rows ended rest trials result _ ih =>
      cases result with
      | ok others => cases failed
      | error inner =>
          obtain ⟨before, last, source, rfl, earlier, isLast, isError⟩ := ih failed
          refine ⟨trial :: before, last, source, rfl, ?_, isLast, isError⟩
          exact List.forall_mem_cons.mpr ⟨⟨rows, ended⟩, earlier⟩
  | failed trial registered settled source ended rest =>
      exact ⟨[], trial, source, rfl, by simp, ended, (Except.error.inj failed).symm⟩

theorem skip_unknown_own (evaluation : Evaluation σ) (leaves : List PlacedLeaf) (world : World σ) :
    (evaluation.skipUnknown leaves : Action σ EvaluateError (List PlacedLeaf)).Does world fun result after journal =>
      result = .ok (leaves.filter evaluation.knows) ∧ after = world ∧
        journal.own evaluation.engine.level = (leaves.filter evaluation.unknown).flatMap evaluation.skipMarks := by
  induction leaves with
  | nil => exact ⟨rfl, rfl, rfl⟩
  | cons placed rest ih =>
      by_cases known : evaluation.knows placed
      · rw [List.filter_cons_of_pos known, List.filter_cons_of_neg (by simpa [unknown, knows] using known)]
        rw [knows] at known
        rw [skipUnknown, if_pos known, Action.bind_does]
        apply Action.does_weaken ih
        rintro _ _ journal ⟨rfl, rfl, isTold⟩
        simpa using isTold
      · rw [List.filter_cons_of_neg known, List.filter_cons_of_pos (by simpa [unknown, knows] using known)]
        rw [knows] at known
        rw [skipUnknown, if_neg known]
        simp only [count, trace, Action.bind_does, Action.count_does, Action.record_does]
        apply Action.does_weaken ih
        rintro _ _ journal ⟨rfl, rfl, isTold⟩
        refine ⟨rfl, rfl, ?_⟩
        rw [List.flatMap_cons, ← isTold]
        simp [skipMarks]

theorem choose_own (evaluation : Evaluation σ) (leaves : List PlacedLeaf)
    (admitted : evaluation.engine.config.missingFilter = .skip ∨ evaluation.Knows leaves) (world : World σ) :
    (evaluation.choose leaves).Does world fun result after journal =>
      result = .ok (leaves.filter evaluation.knows) ∧ after = world ∧
        journal.own evaluation.engine.level = (leaves.filter evaluation.unknown).flatMap evaluation.skipMarks := by
  rcases admitted with skips | known
  · rw [choose, skips]
    exact evaluation.skip_unknown_own leaves world
  · have all : leaves.filter evaluation.knows = leaves := List.filter_eq_self.mpr known
    have none : leaves.filter evaluation.unknown = [] :=
      List.filter_eq_nil_iff.mpr fun placed inside => by simp [unknown, known placed inside]
    rw [evaluation.choose_known leaves known, all, none]
    exact ⟨rfl, rfl, rfl⟩

def faulted (evaluation : Evaluation σ) : Except EvaluateError Store → List Event
  | .ok _ => []
  | .error error => [.traced evaluation.fingerprint (.error error.failureClass .evaluate)]

inductive Kept : Except EvaluateError (List Stored) → Except EvaluateError Store → Prop where
  | stored (results : List Stored) (store : Store) (recorded : store.Records results) : Kept (.ok results) (.ok store)
  | failed (error : EvaluateError) : Kept (.error error) (.error error)

theorem fault_own (evaluation : Evaluation σ) (error : EvaluateError) (inTime : error.isTimeout = false)
    (world : World σ) :
    (evaluation.fault error).Does world fun result _ journal =>
      result = .ok () ∧ journal.own evaluation.engine.level = evaluation.faulted (.error error) := by
  rw [Action.Does, fault_outcome, faultMarks, inTime]
  simp [faulted]

def announced (evaluation : Evaluation σ) (leaves : Nat) : List Event :=
  [.counted (.planEvaluated leaves false), .traced evaluation.fingerprint (.planStart leaves evaluation.engine.depth)]

section Unlimited

variable (evaluation : Evaluation σ) (unlimited : evaluation.engine.deadline.limitMs = none)
  (used : evaluation.engine.Used) (node : Node) (base : Path)
  (admitted : evaluation.engine.config.missingFilter = .skip ∨ evaluation.Knows (node.placedLeaves base))
  (world : World σ)
include unlimited used admitted

theorem store_leaves_unlimited :
    ∃ trials, (evaluation.storeLeaves (node.placedLeaves base)).Does world fun result _ journal =>
      (∃ tried, evaluation.Tried ((node.placedLeaves base).filter evaluation.knows) world trials tried ∧
        Kept tried result) ∧
      journal.own evaluation.engine.level = evaluation.announced (node.placedLeaves base).length ++
        (((node.placedLeaves base).filter evaluation.unknown).flatMap evaluation.skipMarks ++
          trials.flatMap (Trial.told evaluation)) := by
  have known : ∀ placed ∈ (node.placedLeaves base).filter evaluation.knows, evaluation.knows placed = true :=
    fun placed inside => (List.mem_filter.mp inside).2
  obtain ⟨trials, resolves⟩ := evaluation.resolve_all_unlimited unlimited used _ known world
  refine ⟨trials, ?_⟩
  rw [storeLeaves]
  simp only [count, trace, Action.bind_does, Action.count_does, Action.record_does]
  apply Action.does_weaken (evaluation.choose_own _ admitted world)
  rintro _ after skipped ⟨rfl, isWorld, areSkipped⟩
  dsimp only
  rw [isWorld]
  apply Action.does_weaken resolves
  rintro tried final journal ⟨isTried, isTold⟩
  cases tried with
  | error error =>
      refine ⟨⟨_, isTried, .failed error⟩, ?_⟩
      simp [announced, areSkipped, isTold]
  | ok results =>
      have same : results.map Prod.fst = ((node.placedLeaves base).filter evaluation.knows).map PlacedLeaf.path :=
        evaluation.tried_paths _ _ _ _ isTried results rfl
      obtain ⟨store, filled, recorded⟩ := fill_chosen node base _ List.filter_sublist results same
      dsimp only
      rw [Action.of_except_does, filled]
      refine ⟨⟨_, isTried, .stored results store recorded⟩, ?_⟩
      simp [announced, areSkipped, isTold]

theorem evaluate_node_unlimited :
    ∃ trials, (evaluation.evaluateNode node base).Does world fun result _ journal =>
      (∃ tried, evaluation.Tried ((node.placedLeaves base).filter evaluation.knows) world trials tried ∧
        Kept tried result) ∧
      journal.own evaluation.engine.level = evaluation.announced (node.placedLeaves base).length ++
        (((node.placedLeaves base).filter evaluation.unknown).flatMap evaluation.skipMarks ++
          (trials.flatMap (Trial.told evaluation) ++ evaluation.faulted result)) := by
  obtain ⟨trials, stores⟩ := evaluation.store_leaves_unlimited unlimited used node base admitted world
  refine ⟨trials, ?_⟩
  rw [evaluateNode]
  apply Action.on_failure_does
  apply Action.does_weaken stores
  rintro result after journal ⟨⟨tried, isTried, kept⟩, told⟩
  cases kept with
  | stored results store recorded =>
      exact ⟨⟨_, isTried, .stored results store recorded⟩, by simpa [faulted] using told⟩
  | failed error =>
      obtain ⟨_, _, source, _, _, _, rfl⟩ := evaluation.tried_failed _ _ _ _ isTried error rfl
      apply Action.does_weaken (evaluation.fault_own _ rfl after)
      rintro response final rest ⟨answered, isFault⟩
      refine ⟨answered, ⟨_, isTried, .failed _⟩, ?_⟩
      rw [Journal.own_append, told, isFault]
      simp

end Unlimited

def places (evaluation : Evaluation σ) : List PlacedLeaf := evaluation.plan.places

def known (evaluation : Evaluation σ) : List PlacedLeaf := evaluation.places.filter evaluation.knows

def missing (evaluation : Evaluation σ) : List PlacedLeaf := evaluation.places.filter evaluation.unknown

def opened (evaluation : Evaluation σ) : List Event :=
  match evaluation.plan.root with
  | none => [.counted (.planEvaluated 0 true)]
  | some _ => evaluation.announced evaluation.places.length

-- What an evaluation tells at its own level: how the plan is announced, the leaves that are skipped, the calls of its
-- trials, and the failure that ends it.
def telling (evaluation : Evaluation σ) (trials : List (Trial σ)) (result : Except EvaluateError Store) : List Event :=
  evaluation.opened ++ (evaluation.missing.flatMap evaluation.skipMarks ++
    (trials.flatMap (Trial.told evaluation) ++ evaluation.faulted result))

theorem evaluate_unlimited (evaluation : Evaluation σ) (unlimited : evaluation.engine.deadline.limitMs = none)
    (used : evaluation.engine.Used)
    (admitted : evaluation.engine.config.missingFilter = .skip ∨ evaluation.Knows evaluation.places) (world : World σ) :
    ∃ trials, evaluation.evaluate.Does world fun result _ journal =>
      (∃ tried, evaluation.Tried evaluation.known world trials tried ∧ Kept tried result) ∧
      journal.own evaluation.engine.level = evaluation.telling trials result := by
  cases planned : evaluation.plan.root with
  | none =>
      have nothing : evaluation.places = [] := by rw [places, Plan.places, planned]
      refine ⟨[], ?_⟩
      rw [evaluate, planned]
      simp only [telling, known, missing, opened, planned, nothing]
      simp only [count, Action.bind_does, Action.count_does, Action.pure_does]
      refine ⟨⟨.ok [], .nothing world, .stored [] .empty ⟨Store.empty_sound, ?_⟩⟩, ?_⟩
      · rw [Store.empty_entries]
      · simp [faulted]
  | some root =>
      rw [evaluation.evaluate_root root planned]
      simp only [telling, known, missing, opened, planned]
      rw [places, evaluation.plan.places_root root planned] at admitted ⊢
      exact evaluation.evaluate_node_unlimited unlimited used root [] admitted world

end Evaluation

end FilterPlan
