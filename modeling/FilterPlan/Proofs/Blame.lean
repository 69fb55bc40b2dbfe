import FilterPlan.Proofs.Attempts
import FilterPlan.Proofs.Vetting

set_option autoImplicit false

namespace FilterPlan

namespace Evaluation

variable {σ : Type} (evaluation : Evaluation σ)

def FailedCall (placed : PlacedLeaf) (attempts : Nat) (source : ResolverError) (journal : Journal) : Prop :=
  ∃ found attempt start opened closed before after,
    evaluation.registry.find placed.leaf.filter = .ok found ∧ attempts = attempt + 1 ∧
      (evaluation.ask placed found.resolver attempt start).result = .error source ∧
      journal = before ++
        ⟨evaluation.engine.site, opened,
            .resolverCalled placed.path placed.leaf.filter placed.leaf.instruction attempt⟩ ::
          ((evaluation.ask placed found.resolver attempt start).journal ++
            ⟨evaluation.engine.site, closed, .resolverReturned placed.path (.error source)⟩ :: after)

theorem failed_call_append (placed : PlacedLeaf) (attempts : Nat) (source : ResolverError)
    (before journal after : Journal) (failed : evaluation.FailedCall placed attempts source journal) :
    evaluation.FailedCall placed attempts source (before ++ journal ++ after) := by
  obtain ⟨found, attempt, start, opened, closed, front, back, registered, isLast, result, rfl⟩ := failed
  exact ⟨found, attempt, start, opened, closed, before ++ front, back ++ after, registered, isLast, result, by simp⟩

def FailedLeaf (leaves : List PlacedLeaf) (filter : String) (path : Path) (attempts : Nat) (source : ResolverError)
    (journal : Journal) : Prop :=
  ∃ placed ∈ leaves, filter = placed.leaf.filter ∧ path = placed.path ∧
    evaluation.FailedCall placed attempts source journal

-- A failure that names a leaf is that of a call of its resolver.
def Blames (leaves : List PlacedLeaf) {α : Type} (result : Except EvaluateError α) (journal : Journal) : Prop :=
  ∀ filter path attempts source, result = .error (.resolver filter path attempts source) →
    evaluation.FailedLeaf leaves filter path attempts source journal

theorem failed_leaf_more {leaves more : List PlacedLeaf} {filter : String} {path : Path} {attempts : Nat}
    {source : ResolverError} {journal : Journal} (among : leaves ⊆ more) (before after : Journal)
    (failed : evaluation.FailedLeaf leaves filter path attempts source journal) :
    evaluation.FailedLeaf more filter path attempts source (before ++ journal ++ after) := by
  obtain ⟨placed, inside, isFilter, isPath, call⟩ := failed
  exact ⟨placed, among inside, isFilter, isPath,
    evaluation.failed_call_append placed attempts source before journal after call⟩

theorem blames_ok {α : Type} (leaves : List PlacedLeaf) (value : α) (journal : Journal) :
    evaluation.Blames leaves (.ok value : Except EvaluateError α) journal := by
  intro filter path attempts source failed
  cases failed

theorem blames_timeout {α : Type} (leaves : List PlacedLeaf) (error : EvaluateError) (journal : Journal)
    (isTimeout : error.isTimeout = true) :
    evaluation.Blames leaves (.error error : Except EvaluateError α) journal := by
  intro filter path attempts source failed
  rw [Except.error.inj failed] at isTimeout
  cases isTimeout

theorem blames_registry {α : Type} (leaves : List PlacedLeaf) (error : RegistryError) (journal : Journal) :
    evaluation.Blames leaves (.error (.registry error) : Except EvaluateError α) journal := by
  intro filter path attempts source failed
  cases failed

theorem blames_more {α β : Type} {leaves more : List PlacedLeaf} {error : EvaluateError} {journal : Journal}
    (among : leaves ⊆ more) (before after : Journal)
    (blames : evaluation.Blames leaves (.error error : Except EvaluateError α) journal) :
    evaluation.Blames more (.error error : Except EvaluateError β) (before ++ journal ++ after) := by
  intro filter path attempts source failed
  have here := blames filter path attempts source (congrArg Except.error (Except.error.inj failed))
  exact evaluation.failed_leaf_more among before after here

theorem call_blames (placed : PlacedLeaf) (found : Filter σ)
    (registered : evaluation.registry.find placed.leaf.filter = .ok found) (attempt : Nat) :
    (evaluation.call placed found.resolver attempt).Writes fun result journal =>
      (∀ error, result = .error error → error.isTimeout = true) ∧
        ∀ source, result = .ok (.error source) → evaluation.FailedCall placed (attempt + 1) source journal := by
  rw [call]
  apply Action.bind_writes
  apply Deadline.check_writes
  intro early isTimeout
  cases early with
  | error error => exact ⟨by simpa using isTimeout, by simp⟩
  | ok _ =>
      apply Action.record_then_writes
      intro opened
      apply Action.bind_writes
      apply Action.attempt_writes
      intro start
      apply Action.record_then_writes
      intro closed
      apply Action.bind_writes
      apply Deadline.check_writes
      intro late isTimeout
      cases late with
      | error error => exact ⟨by simpa using isTimeout, by simp⟩
      | ok _ =>
          apply Action.pure_writes
          constructor
          · intro error failed
            cases failed
          · intro source failed
            have result := Except.ok.inj failed
            refine ⟨found, attempt, start, opened, closed, [], [], registered, rfl, result, ?_⟩
            rw [← result]
            simp [ask]

theorem give_up_blames (placed : PlacedLeaf) (attempt : Nat) (source : ResolverError) (journal : Journal)
    (call : evaluation.FailedCall placed (attempt + 1) source journal) :
    (evaluation.giveUp placed attempt source).Writes fun result rest =>
      evaluation.Blames [placed] result (journal ++ rest) := by
  rw [giveUp]
  apply Action.count_then_writes
  intro time
  apply Action.fail_writes
  intro filter path attempts other same
  obtain ⟨rfl, rfl, rfl, rfl⟩ := EvaluateError.resolver.inj (Except.error.inj same)
  exact ⟨placed, List.mem_singleton.mpr rfl, rfl, rfl,
    evaluation.failed_call_append placed _ source [] journal _ call⟩

theorem accept_blames (placed : PlacedLeaf) (attempt : Nat) (rows : IdentitySet) (journal : Journal) :
    (evaluation.accept placed attempt rows).Writes fun result rest =>
      evaluation.Blames [placed] result (journal ++ rest) := by
  rw [accept]
  exact Action.count_then_writes fun counted => Action.record_then_writes fun traced =>
    Action.pure_writes (evaluation.blames_ok _ _ _)

theorem call_then_blames (placed : PlacedLeaf) (found : Filter σ)
    (registered : evaluation.registry.find placed.leaf.filter = .ok found) (attempt : Nat)
    (react : Except ResolverError IdentitySet → Action σ EvaluateError IdentitySet)
    (accepts : ∀ rows, react (.ok rows) = evaluation.accept placed attempt rows)
    (reacts : ∀ source journal, evaluation.FailedCall placed (attempt + 1) source journal →
      (react (.error source)).Writes fun result rest => evaluation.Blames [placed] result (journal ++ rest)) :
    (evaluation.call placed found.resolver attempt >>= react).Writes (evaluation.Blames [placed]) := by
  apply Action.bind_writes
  refine Action.writes_weaken (evaluation.call_blames placed found registered attempt) ?_
  intro result journal known
  cases result with
  | error error => exact evaluation.blames_timeout _ error journal (known.1 error rfl)
  | ok outcome =>
      cases outcome with
      | ok rows =>
          dsimp only
          rw [accepts]
          exact evaluation.accept_blames placed attempt rows journal
      | error source => exact reacts source journal (known.2 source rfl)

theorem rows_of_blames (placed : PlacedLeaf) (found : Filter σ)
    (registered : evaluation.registry.find placed.leaf.filter = .ok found) (retries attempt : Nat) :
    (evaluation.rowsOf placed found.resolver retries attempt).Writes (evaluation.Blames [placed]) := by
  induction retries generalizing attempt with
  | zero =>
      rw [rowsOf]
      exact evaluation.call_then_blames placed found registered attempt _ (fun _ => rfl)
        (evaluation.give_up_blames placed attempt)
  | succ retries ih =>
      rw [rowsOf]
      apply evaluation.call_then_blames placed found registered attempt _ (fun _ => rfl)
      intro source journal call
      dsimp only
      by_cases passing : source.isTransient
      · rw [if_pos passing]
        apply Action.count_then_writes
        intro time
        refine Action.writes_weaken (ih (attempt + 1)) ?_
        intro result rest blames
        cases result with
        | ok rows => exact evaluation.blames_ok _ rows _
        | error error =>
            have later := evaluation.blames_more (β := IdentitySet) (List.Subset.refl _)
              (journal ++ [⟨evaluation.engine.site, time, .counted .resolverRetry⟩]) [] blames
            simpa using later
      · rw [if_neg passing]
        exact evaluation.give_up_blames placed attempt source journal call

theorem resolve_blames (placed : PlacedLeaf) : (evaluation.resolve placed).Writes (evaluation.Blames [placed]) := by
  rw [resolve]
  apply Action.bind_writes
  apply Action.of_except_writes
  cases registered : evaluation.registry.find placed.leaf.filter with
  | ok found => exact evaluation.rows_of_blames placed found registered _ 0
  | error error => exact evaluation.blames_registry _ error []

theorem resolve_all_blames (leaves : List PlacedLeaf) :
    (evaluation.resolveAll leaves).Writes (evaluation.Blames leaves) := by
  induction leaves with
  | nil => exact Action.done_writes (evaluation.blames_ok _ _ _)
  | cons placed rest ih =>
      rw [resolveAll]
      apply Action.bind_writes
      refine Action.writes_weaken (evaluation.resolve_blames placed) ?_
      intro result journal first
      cases result with
      | error error =>
          have among : [placed] ⊆ placed :: rest := by simp
          simpa using evaluation.blames_more (β := List Stored) among [] [] first
      | ok rows =>
          apply Action.bind_writes
          refine Action.writes_weaken ih ?_
          intro result later others
          cases result with
          | error error =>
              have among : rest ⊆ placed :: rest := List.subset_cons_self placed rest
              simpa using evaluation.blames_more (β := List Stored) among journal [] others
          | ok results => exact Action.pure_writes (evaluation.blames_ok _ _ _)

theorem choose_blames (leaves : List PlacedLeaf) :
    (evaluation.choose leaves).Writes fun result journal =>
      (∀ chosen, result = .ok chosen → chosen ⊆ leaves) ∧ evaluation.Blames leaves result journal := by
  intro world
  obtain ⟨_, _, chosen, _⟩ := evaluation.choose_ends leaves world
  constructor
  · intro kept isKept
    rw [chosen kept isKept]
    exact List.filter_subset_self leaves
  · intro filter path attempts source failed
    rw [choose] at failed
    cases isPolicy : evaluation.engine.config.missingFilter with
    | skip =>
        rw [isPolicy] at failed
        obtain ⟨isOk, _⟩ := evaluation.skip_unknown_ends (ε := EvaluateError) leaves world
        cases isOk.symm.trans failed
    | reject =>
        rw [isPolicy] at failed
        dsimp only at failed
        cases unknown : leaves.find? fun placed => !evaluation.registry.contains placed.leaf.filter with
        | none =>
            rw [unknown] at failed
            cases failed
        | some placed =>
            rw [unknown] at failed
            cases failed

theorem fill_blames (leaves : List PlacedLeaf) (results : List Stored) (store : Store) (journal : Journal) :
    evaluation.Blames leaves (fill results store) journal := by
  induction results generalizing store with
  | nil => exact evaluation.blames_ok leaves store journal
  | cons result rest ih =>
      rw [fill]
      rcases store.insert result.1 result.2 with ⟨next, _ | _⟩
      · intro filter path attempts source failed
        cases failed
      · exact ih next

theorem store_leaves_blames (leaves : List PlacedLeaf) :
    (evaluation.storeLeaves leaves).Writes (evaluation.Blames leaves) := by
  rw [storeLeaves]
  apply Action.count_then_writes
  intro counted
  apply Action.record_then_writes
  intro traced
  apply Action.bind_writes
  refine Action.writes_weaken (evaluation.choose_blames leaves) ?_
  intro result chosenIn known
  cases result with
  | error error =>
      have later := evaluation.blames_more (β := Store) (List.Subset.refl leaves)
        (evaluation.opening leaves.length counted traced) [] known.2
      simpa [opening] using later
  | ok chosen =>
      apply Action.bind_writes
      refine Action.writes_weaken (evaluation.resolve_all_blames chosen) ?_
      intro result resolvedIn blames
      cases result with
      | error error =>
          have later := evaluation.blames_more (β := Store) (known.1 chosen rfl)
            (evaluation.opening leaves.length counted traced ++ chosenIn) [] blames
          simpa [opening] using later
      | ok results => exact Action.of_except_writes (evaluation.fill_blames leaves results _ _)

-- An evaluation that fails for a leaf has called the resolver of that leaf, and got the failure from it.
theorem evaluate_node_blames (node : Node) (base : Path) :
    (evaluation.evaluateNode node base).Writes (evaluation.Blames (node.placedLeaves base)) := by
  rw [evaluateNode]
  apply Action.on_failure_writes
  refine Action.writes_weaken (evaluation.store_leaves_blames (node.placedLeaves base)) ?_
  intro result journal blames
  cases result with
  | ok store => exact blames
  | error error =>
      intro world
      rw [fault_outcome]
      refine ⟨rfl, ?_⟩
      have later := evaluation.blames_more (β := Store) (List.Subset.refl _) []
        (evaluation.faultMarks error world.now) blames
      simpa using later

end Evaluation

theorem PipelineError.planning_no_leaf (filter : String) (path : Path) (attempts : Nat) (source : ResolverError) :
    ¬ (PipelineError.evaluate (.resolver filter path attempts source)).OfPlanning := by
  intro ofPlanning
  cases ofPlanning

namespace Pipeline

variable {σ : Type} (pipeline : Pipeline σ) (engine : Engine σ)

def FailedLeaf (plan : Plan) (filter : String) (path : Path) (attempts : Nat) (source : ResolverError)
    (journal : Journal) : Prop :=
  (Evaluation.ofPlan engine pipeline.registry plan).FailedLeaf plan.places filter path attempts source journal

theorem execute_blames (plan : Plan) :
    (pipeline.execute engine plan).Writes fun result journal => ∀ filter path attempts source,
      result = .error (.evaluate (.resolver filter path attempts source)) →
        pipeline.FailedLeaf engine plan filter path attempts source journal := by
  cases planned : plan.root with
  | none =>
      rw [pipeline.execute_unfiltered engine plan planned]
      refine Action.count_then_writes fun counted => Action.record_then_writes fun traced => Action.pure_writes ?_
      intro filter path attempts source failed
      cases failed
  | some root =>
      have isPlaces := plan.places_root root planned
      rw [pipeline.execute_filtered engine plan root planned]
      apply Action.bind_writes
      apply Action.map_error_writes
      refine Action.writes_weaken (Evaluation.evaluate_node_blames _ root []) ?_
      intro result journal blames
      cases result with
      | error error =>
          intro filter path attempts source failed
          have isLeaf := PipelineError.evaluate.inj (Except.error.inj failed)
          rw [FailedLeaf, isPlaces]
          exact blames filter path attempts source (congrArg Except.error isLeaf)
      | ok store =>
          simp only [Except.mapError, merge]
          cases store.merge (Evaluation.ofPlan engine pipeline.registry plan).engine.config.missingOperand with
          | error error =>
              refine Action.bind_writes (Action.record_then_writes fun traced => Action.fail_writes ?_)
              intro filter path attempts source failed
              cases failed
          | ok rows =>
              refine Action.bind_writes (Action.done_writes (Action.count_then_writes fun counted =>
                Action.record_then_writes fun traced => Action.pure_writes ?_))
              intro filter path attempts source failed
              cases failed

theorem run_blames (question : String) :
    (pipeline.run engine question).Writes fun result journal => ∀ filter path attempts source,
      result = .error (.evaluate (.resolver filter path attempts source)) →
        ∃ plan, pipeline.FailedLeaf engine plan filter path attempts source journal := by
  refine Action.writes_weaken (pipeline.run_writes engine question) ?_
  intro result journal ran filter path attempts source failed
  cases ran with
  | unplanned opened closed planning error ofPlanning quiet =>
      rw [Except.error.inj failed] at ofPlanning
      exact absurd ofPlanning (PipelineError.planning_no_leaf filter path attempts source)
  | executed opened closed planning plan world quiet checked =>
      have here := pipeline.execute_blames engine plan world filter path attempts source failed
      have wider := Evaluation.failed_leaf_more _ (List.Subset.refl _)
        (⟨engine.site, opened, .counted (.pipelineStart pipeline.name (engine.depth > 0))⟩ :: planning)
        [⟨engine.site, closed, .counted (closing pipeline.name (pipeline.execute engine plan world).result)⟩] here
      exact ⟨plan, by simpa [FailedLeaf] using wider⟩

end Pipeline

namespace Manager

variable {σ : Type} (manager : Manager σ)

def FailedLeaf (query : Query) (depth : Nat) (name filter : String) (path : Path) (attempts : Nat)
    (source : ResolverError) (journal : Journal) : Prop :=
  ∃ pipeline plan, manager.find name = .ok pipeline ∧
    pipeline.FailedLeaf (manager.engineAt query depth) plan filter path attempts source journal

def Blames (query : Query) (depth : Nat) (name : String) (error : PipelineError) (journal : Journal) : Prop :=
  ∀ filter path attempts source, error = .evaluate (.resolver filter path attempts source) →
    manager.FailedLeaf query depth name filter path attempts source journal

theorem find_leafless (name filter : String) (path : Path) (attempts : Nat) (source : ResolverError) :
    manager.find name ≠ .error (.evaluate (.resolver filter path attempts source)) := by
  intro failed
  rw [find] at failed
  cases listed : manager.pipelines.find? name with
  | some pipeline => simp [listed] at failed
  | none => simp [listed] at failed

theorem run_at_blames (query : Query) (depth : Nat) (name question : String) (world : World σ)
    (error : PipelineError) (failed : (manager.runAt query depth name question world).result = .error error) :
    manager.Blames query depth name error (manager.runAt query depth name question world).journal := by
  intro filter path attempts source isLeaf
  rw [isLeaf] at failed
  by_cases beyond : manager.config.maxNestingDepth < depth
  · rw [manager.run_at_beyond query depth beyond] at failed
    cases failed
  · have within : depth ≤ manager.config.maxNestingDepth := Nat.le_of_not_lt beyond
    cases found : manager.find name with
    | error unknown =>
        rw [manager.run_at_within query depth within, found] at failed
        have isUnknown : unknown = .evaluate (.resolver filter path attempts source) := Except.error.inj failed
        rw [isUnknown] at found
        exact absurd found (manager.find_leafless name filter path attempts source)
    | ok pipeline =>
        rw [manager.run_at_found query depth within name question pipeline found] at failed ⊢
        obtain ⟨plan, here⟩ := pipeline.run_blames _ question world filter path attempts source failed
        exact ⟨pipeline, plan, found, here⟩

theorem run_blames (name question : String) (world : World σ) (error : PipelineError)
    (failed : (manager.run name question world).result = .error error) :
    manager.Blames (manager.queryFrom world) 0 name error (manager.run name question world).journal :=
  manager.run_at_blames (manager.queryFrom world) 0 name question world error failed

theorem execute_blames (name : String) (plan : Plan) (world : World σ) (error : PipelineError)
    (failed : (manager.execute name plan world).result = .error error) :
    manager.Blames (manager.queryFrom world) 0 name error (manager.execute name plan world).journal := by
  intro filter path attempts source isLeaf
  rw [isLeaf] at failed
  rw [execute_from_start] at failed ⊢
  cases found : manager.find name with
  | error unknown =>
      rw [found] at failed
      have isUnknown : unknown = .evaluate (.resolver filter path attempts source) := Except.error.inj failed
      rw [isUnknown] at found
      exact absurd found (manager.find_leafless name filter path attempts source)
  | ok pipeline =>
      rw [found] at failed
      exact ⟨pipeline, plan, found, pipeline.execute_blames _ plan world filter path attempts source failed⟩

theorem answer_blames (question : String) (world : World σ) (error : PipelineError)
    (failed : (manager.answer question world).result = .error error) :
    ∃ name later, manager.Blames (manager.queryFrom later) 0 name error (manager.answer question world).journal := by
  rcases manager.answer_writes question world with ⟨_, other, isOther, ofChoice⟩ | ⟨name, later, isJournal, isResult⟩
  · refine ⟨"", world, fun filter path attempts source isLeaf => ?_⟩
    rw [← Except.error.inj (failed.symm.trans isOther), isLeaf] at ofChoice
    cases ofChoice
  · refine ⟨name, later, ?_⟩
    rw [isJournal]
    rw [failed] at isResult
    cases ended : (manager.run name question later).result with
    | ok rows => simp [ended, Except.map] at isResult
    | error other =>
        rw [ended] at isResult
        rw [Except.error.inj isResult]
        exact manager.run_blames name question later other ended

end Manager

end FilterPlan
