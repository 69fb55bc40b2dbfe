import FilterPlan.Proofs.Blame
import FilterPlan.Proofs.Nesting

set_option autoImplicit false

namespace FilterPlan

-- What the run around a failed run adds to its failure: the leaf whose resolver asked for the failed run.
structure Layer where
  filter : String
  path : Path
  attempts : Nat
deriving DecidableEq, Repr

namespace Layer

def wrap (layer : Layer) (inner : PipelineError) : PipelineError :=
  .evaluate (.resolver layer.filter layer.path layer.attempts (.nested inner))

def heading (layer : Layer) : String :=
  "filter '" ++ layer.filter ++ "' failed at '" ++ layer.path.text ++ "' after " ++ toString layer.attempts
    ++ " attempt(s): "

def preamble (layer : Layer) : String := layer.heading ++ "nested pipeline run failed: "

theorem wrap_class (layer : Layer) (inner : PipelineError) :
    (layer.wrap inner).failureClass = inner.failureClass := rfl

theorem wrap_origin (layer : Layer) (inner : PipelineError) : (layer.wrap inner).origin = .evaluate := rfl

theorem wrap_message (layer : Layer) (inner : PipelineError) :
    (layer.wrap inner).message = layer.preamble ++ inner.message := by
  have isMessage : (layer.wrap inner).message =
      layer.heading ++ ("nested pipeline run failed: " ++ inner.message) := rfl
  have isPreamble : layer.preamble = layer.heading ++ "nested pipeline run failed: " := rfl
  rw [isMessage, isPreamble, String.append_assoc]

end Layer

namespace PipelineError

def wrapped (error : PipelineError) (layers : List Layer) : PipelineError := layers.foldr Layer.wrap error

def core : PipelineError → PipelineError
  | .evaluate (.resolver _ _ _ (.nested inner)) => inner.core
  | error => error

def layers : PipelineError → List Layer
  | .evaluate (.resolver filter path attempts (.nested inner)) => ⟨filter, path, attempts⟩ :: inner.layers
  | _ => []

def isNested : PipelineError → Bool
  | .evaluate (.resolver _ _ _ (.nested _)) => true
  | _ => false

theorem wrapped_cons (error : PipelineError) (layer : Layer) (layers : List Layer) :
    error.wrapped (layer :: layers) = layer.wrap (error.wrapped layers) := rfl

theorem wrap_core (layer : Layer) (inner : PipelineError) : (layer.wrap inner).core = inner.core := rfl

theorem wrap_layers (layer : Layer) (inner : PipelineError) : (layer.wrap inner).layers = layer :: inner.layers := rfl

theorem core_wrapped (error : PipelineError) (layers : List Layer) : (error.wrapped layers).core = error.core := by
  induction layers with
  | nil => rfl
  | cons layer layers ih => rw [wrapped_cons, wrap_core, ih]

theorem layers_wrapped (error : PipelineError) (layers : List Layer) :
    (error.wrapped layers).layers = layers ++ error.layers := by
  induction layers with
  | nil => rfl
  | cons layer layers ih => rw [wrapped_cons, wrap_layers, ih, List.cons_append]

theorem wrapped_class (error : PipelineError) (layers : List Layer) :
    (error.wrapped layers).failureClass = error.failureClass := by
  induction layers with
  | nil => rfl
  | cons layer layers ih => rw [wrapped_cons, Layer.wrap_class, ih]

theorem wrapped_origin (error : PipelineError) (layers : List Layer) (exist : layers ≠ []) :
    (error.wrapped layers).failure.origin = .evaluate ∧ (error.wrapped layers).failure.report.origin = .evaluate := by
  obtain ⟨layer, rest, isLayers⟩ := List.exists_cons_of_ne_nil exist
  have isEvaluate := layer.wrap_origin (error.wrapped rest)
  rw [isLayers]
  exact ⟨isEvaluate, isEvaluate⟩

theorem wrapped_message (error : PipelineError) (layers : List Layer) :
    (error.wrapped layers).message = String.join (layers.map Layer.preamble) ++ error.message := by
  induction layers with
  | nil => simp [wrapped]
  | cons layer layers ih =>
      rw [wrapped_cons, Layer.wrap_message, ih, List.map_cons, String.join_cons, String.append_assoc]

theorem bare_core (error : PipelineError) (bare : error.isNested = false) : error.core = error := by
  fun_cases core error with
  | case1 filter path attempts inner => cases bare
  | case2 => rfl

theorem bare_layers (error : PipelineError) (bare : error.isNested = false) : error.layers = [] := by
  fun_cases layers error with
  | case1 filter path attempts inner => cases bare
  | case2 => rfl

theorem nested_layer (error : PipelineError) (nested : error.isNested = true) :
    ∃ layer inner, error = Layer.wrap layer inner := by
  revert nested
  fun_cases isNested error with
  | case1 filter path attempts inner => exact fun _ => ⟨⟨filter, path, attempts⟩, inner, rfl⟩
  | case2 => exact fun never => by cases never

theorem core_layers (error : PipelineError) :
    error = error.core.wrapped error.layers ∧ error.core.isNested = false := by
  fun_induction core error with
  | case1 filter path attempts inner ih =>
      have isLayers := wrap_layers ⟨filter, path, attempts⟩ inner
      rw [Layer.wrap] at isLayers
      rw [isLayers, wrapped_cons, ← ih.1]
      exact ⟨rfl, ih.2⟩
  | case2 error other =>
      have bare : error.isNested = false := by
        rw [Bool.eq_false_iff]
        intro nested
        obtain ⟨layer, inner, isLayer⟩ := error.nested_layer nested
        exact other layer.filter layer.path layer.attempts inner isLayer
      rw [error.bare_layers bare]
      exact ⟨rfl, bare⟩

structure Unlayered (error : PipelineError) (told : Layer → PipelineError → Prop) : Prop where
  whole : error = error.core.wrapped error.layers
  bare : error.core.isNested = false
  unique : ∀ layers core, core.isNested = false → error = core.wrapped layers →
    layers = error.layers ∧ core = error.core
  outermost : ∀ layer rest, error.layers = layer :: rest → told layer (error.core.wrapped rest)

theorem unlayered (error : PipelineError) (told : Layer → PipelineError → Prop)
    (outermost : ∀ layer inner, error = Layer.wrap layer inner → told layer inner) : error.Unlayered told := by
  obtain ⟨whole, bare⟩ := error.core_layers
  constructor
  case whole => exact whole
  case bare => exact bare
  case unique =>
    intro layers core isBare same
    rw [same, layers_wrapped, core_wrapped, core.bare_layers isBare, core.bare_core isBare, List.append_nil]
    exact ⟨rfl, rfl⟩
  case outermost =>
    intro layer rest isLayers
    apply outermost
    rw [isLayers] at whole
    exact whole

end PipelineError

namespace Pipeline

variable {σ : Type} (pipeline : Pipeline σ) (engine : Engine σ)

-- A layer tells of a leaf of the plan that was called, and whose resolver passed on what lies inside the layer.
def Tells (plan : Plan) (journal : Journal) (layer : Layer) (inner : PipelineError) : Prop :=
  pipeline.FailedLeaf engine plan layer.filter layer.path layer.attempts (.nested inner) journal

theorem run_unlayered (question : String) (world : World σ) (error : PipelineError)
    (failed : (pipeline.run engine question world).result = .error error) :
    error.Unlayered fun layer inner =>
      ∃ plan, pipeline.Tells engine plan (pipeline.run engine question world).journal layer inner := by
  apply error.unlayered
  intro layer inner isLayer
  rw [isLayer] at failed
  exact pipeline.run_blames engine question world _ _ _ _ failed

theorem execute_unlayered (plan : Plan) (world : World σ) (error : PipelineError)
    (failed : (pipeline.execute engine plan world).result = .error error) :
    error.Unlayered (pipeline.Tells engine plan (pipeline.execute engine plan world).journal) := by
  apply error.unlayered
  intro layer inner isLayer
  rw [isLayer] at failed
  exact pipeline.execute_blames engine plan world _ _ _ _ failed

end Pipeline

namespace Manager

variable {σ : Type} (manager : Manager σ)

def Tells (query : Query) (depth : Nat) (name : String) (journal : Journal) (layer : Layer)
    (inner : PipelineError) : Prop :=
  manager.FailedLeaf query depth name layer.filter layer.path layer.attempts (.nested inner) journal

theorem blames_unlayered (query : Query) (depth : Nat) (name : String) (error : PipelineError)
    (journal : Journal) (blames : manager.Blames query depth name error journal) :
    error.Unlayered (manager.Tells query depth name journal) := by
  apply error.unlayered
  intro layer inner isLayer
  exact blames _ _ _ _ isLayer

end Manager

-- Whatever an error is wrapped in, its class and its kind stay, and its message comes last. The errors of all runs are
-- made of a failure that is not nested and of layers, the outermost of which tells of a leaf that the run has called.
theorem PipelineError.seen_through :
    (∀ (error : PipelineError) (layers : List Layer),
      let outer := error.wrapped layers
      outer.failureClass = error.failureClass ∧
        outer.failure.report.kind = error.failure.report.kind ∧
        (layers ≠ [] → outer.failure.origin = .evaluate ∧ outer.failure.report.origin = .evaluate) ∧
        outer.message = String.join (layers.map Layer.preamble) ++ error.message ∧
        outer.failure.report.message = outer.message ∧
        (error.failureClass = .configuration → outer.failure.report.kind = .configuration)) ∧
      (∀ (σ : Type) (pipeline : Pipeline σ) (engine : Engine σ) (world : World σ) (error : PipelineError),
        (∀ question, let ran := pipeline.run engine question world
          ran.result = .error error →
            error.Unlayered fun layer inner => ∃ plan, pipeline.Tells engine plan ran.journal layer inner) ∧
          ∀ plan, let executed := pipeline.execute engine plan world
            executed.result = .error error → error.Unlayered (pipeline.Tells engine plan executed.journal)) ∧
      ∀ (σ : Type) (manager : Manager σ) (world : World σ) (error : PipelineError),
        (∀ query depth name question, let ran := manager.runAt query depth name question world
          ran.result = .error error → error.Unlayered (manager.Tells query depth name ran.journal)) ∧
          (∀ name question, let ran := manager.run name question world
            ran.result = .error error →
              error.Unlayered (manager.Tells (manager.queryFrom world) 0 name ran.journal)) ∧
          (∀ question, let answered := manager.answer question world
            answered.result = .error error →
              ∃ name later, error.Unlayered (manager.Tells (manager.queryFrom later) 0 name answered.journal)) ∧
          ∀ name plan, let executed := manager.execute name plan world
            executed.result = .error error →
              error.Unlayered (manager.Tells (manager.queryFrom world) 0 name executed.journal) := by
  refine ⟨?_, ?_, ?_⟩
  · intro error layers
    have same := error.wrapped_class layers
    have sameKind : (error.wrapped layers).failure.report.kind = error.failure.report.kind :=
      congrArg FailureClass.kind same
    refine ⟨same, sameKind, error.wrapped_origin layers, error.wrapped_message layers, rfl, ?_⟩
    intro isConfiguration
    rw [sameKind]
    exact congrArg FailureClass.kind isConfiguration
  · intro σ pipeline engine world error
    constructor
    · intro question ran failed
      exact pipeline.run_unlayered engine question world error failed
    · intro plan executed failed
      exact pipeline.execute_unlayered engine plan world error failed
  · intro σ manager world error
    refine ⟨?_, ?_, ?_, ?_⟩
    · intro query depth name question ran failed
      exact manager.blames_unlayered _ _ _ _ _ (manager.run_at_blames query depth name question world error failed)
    · intro name question ran failed
      exact manager.blames_unlayered _ _ _ _ _ (manager.run_blames name question world error failed)
    · intro question answered failed
      obtain ⟨name, later, blames⟩ := manager.answer_blames question world error failed
      exact ⟨name, later, manager.blames_unlayered _ _ _ _ _ blames⟩
    · intro name plan executed failed
      exact manager.blames_unlayered _ _ _ _ _ (manager.execute_blames name plan world error failed)

namespace Evaluation

variable {σ : Type} (evaluation : Evaluation σ)

theorem resolve_nested (unlimited : evaluation.engine.deadline.limitMs = none)
    (scope : Scope σ) (inScope : evaluation.engine.scope = some scope) (placed : PlacedLeaf) (found : Filter σ)
    (pipeline : String) (project : IdentitySet → Except ResolverError IdentitySet)
    (asks : found.resolver = .nested pipeline project)
    (registered : evaluation.registry.find placed.leaf.filter = .ok found) (error : PipelineError) (world : World σ)
    (failed : (scope.nested pipeline placed.leaf.instruction world).result = .error error) :
    (evaluation.resolve placed).Ends world fun result _ =>
      result = .error (.resolver placed.leaf.filter placed.path 1 (.nested error)) := by
  have early (now : Nat) : evaluation.engine.deadline.timeout? now = none :=
    timeout_unlimited evaluation.engine.deadline unlimited now
  have asked : (((found.resolver placed.leaf.instruction (evaluation.context placed.path 0)).perform
      evaluation.engine.serve).Ends world fun result _ => result = .error (.nested error)) := by
    rw [asks]
    change ((evaluation.engine.serve.ask pipeline placed.leaf.instruction).attempt >>= _).Ends world _
    rw [Action.bind_ends, Action.attempt_ends, Engine.serve, inScope]
    dsimp only
    rw [Action.map_error_ends, Action.Ends, failed]
    rfl
  have called : (evaluation.call placed found.resolver 0).Ends world fun result _ =>
      result = .ok (.error (.nested error)) := by
    rw [call]
    simp only [Action.bind_ends, Deadline.check_ends, Action.record_ends, Action.attempt_ends, early]
    apply Action.ends_weaken asked
    intro result after isError
    rw [isError]
    exact rfl
  have givesUp : (evaluation.rowsOf placed found.resolver evaluation.engine.config.resolverRetries 0).Ends world
      fun result _ => result = .error (.resolver placed.leaf.filter placed.path 1 (.nested error)) := by
    cases evaluation.engine.config.resolverRetries
    all_goals
      rw [rowsOf, Action.bind_ends]
      apply Action.ends_weaken called
      intro result after isError
      rw [isError]
      exact rfl
  rw [resolve, Action.bind_ends, Action.of_except_ends, registered]
  exact givesUp

end Evaluation

def loopLeaf : PlacedLeaf := ⟨[.first (.filter "again")], ⟨"again", "and again"⟩⟩

def loopLayer : Layer := ⟨"again", [.first (.filter "again")], 1⟩

theorem loop_registered : loopRegistry.find "again" = .ok ⟨"Ask again.", .nested "loop" .ok⟩ := by
  obtain ⟨next, registered⟩ := Registry.register_fresh (.empty : Registry Unit) ⟨"again", "Ask again."⟩
    (.nested "loop" .ok) (Registry.find_empty "again")
  have isNext : loopRegistry = next := by
    rw [loopRegistry, registered]
  rw [isNext, Registry.find_register _ _ _ _ registered, if_pos rfl]

theorem loop_known : loopRegistry.contains "again" = true :=
  (loopRegistry.contains_find "again").mpr ⟨_, loop_registered⟩

theorem loop_leaves : (Node.leaf ⟨"again", "and again"⟩).placedLeaves [] = [loopLeaf] := by
  rw [Node.placed_leaves_positions]
  rfl

def loopPlan : Plan := .ofNode (.leaf ⟨"again", "and again"⟩)

theorem loop_checked : loopPipeline.Checked loopPlan := by
  have known : loopPipeline.schema.contains "again" = true := by
    rw [Pipeline.schema_contains]
    exact loop_known
  rw [Pipeline.Checked, loopPlan.check_filters_find _ rfl, loop_leaves]
  simp [loopLeaf, known]

section

variable (engine : Engine Unit) (unlimited : engine.deadline.limitMs = none) (scope : Scope Unit)
  (inScope : engine.scope = some scope) (error : PipelineError)
  (failed : ∀ world, (scope.nested "loop" "and again" world).result = .error error)

include unlimited inScope failed

theorem loop_execute (world : World Unit) :
    (loopPipeline.execute engine loopPlan).Ends world fun result _ => result = .error (loopLayer.wrap error) := by
  let evaluation := Evaluation.ofPlan engine loopRegistry loopPlan
  have resolved (world : World Unit) : (evaluation.resolve loopLeaf).Ends world fun result _ =>
      result = .error (.resolver "again" loopLeaf.path 1 (.nested error)) :=
    evaluation.resolve_nested unlimited scope inScope loopLeaf _ "loop" .ok rfl loop_registered error world (failed world)
  have known : evaluation.Knows [loopLeaf] := by
    intro placed inside
    rw [List.mem_singleton.mp inside]
    exact loop_known
  have evaluated : (evaluation.evaluateNode (.leaf ⟨"again", "and again"⟩) []).Ends world fun result _ =>
      result = .error (.resolver "again" loopLeaf.path 1 (.nested error)) := by
    rw [Evaluation.evaluateNode, loop_leaves]
    apply Action.on_failure_ends _ _ _ _ evaluation.fault_quiet
    rw [Evaluation.storeLeaves, Evaluation.count, Evaluation.trace, evaluation.choose_known _ known]
    simp only [Action.bind_ends, Action.count_ends, Action.record_ends, Action.done_ends, Evaluation.resolveAll]
    apply Action.ends_weaken (resolved world)
    intro result after isError
    rw [isError]
  rw [loopPipeline.execute_filtered engine loopPlan _ rfl, Action.bind_ends, Action.map_error_ends]
  apply Action.ends_weaken evaluated
  intro result after isError
  rw [isError]
  exact rfl

theorem loop_run (question : String) (world : World Unit) :
    (loopPipeline.run engine question).Ends world fun result _ => result = .error (loopLayer.wrap error) := by
  have early (now : Nat) : engine.deadline.timeout? now = none :=
    Evaluation.timeout_unlimited engine.deadline unlimited now
  have proposed : (loopPipeline.propose engine question 0 none).Ends world fun result _ =>
      result = .ok (.ok loopPlan) := by
    have checked : loopPlan.checkFilters loopPipeline.schema.contains = .ok () := loop_checked
    rw [Action.Ends, Pipeline.propose_outcome, early]
    change Except.ok (loopPipeline.judge 0 (.ok loopPlan)) = _
    rw [Pipeline.judge, checked]
  have planned : (loopPipeline.generatePlan engine question).Ends world fun result _ => result = .ok loopPlan := by
    rw [Pipeline.generatePlan]
    cases min engine.config.planRetries (maxWord32 - 1)
    all_goals
      rw [Pipeline.planFor, Action.bind_ends]
      apply Action.ends_weaken proposed
      intro result after isPlan
      rw [isPlan]
      exact rfl
  have answered : (loopPipeline.answer engine question).Ends world fun result _ =>
      result = .error (loopLayer.wrap error) := by
    rw [Pipeline.answer, Action.bind_ends]
    apply Action.ends_weaken planned
    intro result after isPlan
    rw [isPlan]
    exact loop_execute engine unlimited scope inScope error failed after
  rw [Pipeline.run, Action.bind_ends, Action.count_ends]
  dsimp only
  rw [Action.bind_ends]
  apply Action.on_failure_ends _ _ _ _ (fun _ _ => ⟨rfl, rfl⟩)
  apply Action.ends_weaken answered
  intro result after isError
  rw [isError]

end

def loopsWithin (limit : Nat) : Manager Unit :=
  .only { Config.default with maxNestingDepth := limit } "loop" loopPipeline

theorem loops_config (limit : Nat) : (loopsWithin limit).config = { Config.default with maxNestingDepth := limit } :=
  Manager.only_config _ "loop" loopPipeline

theorem loops_found (limit : Nat) : (loopsWithin limit).find "loop" = .ok loopPipeline :=
  Manager.only_find _ "loop" loopPipeline

theorem loops_run_at (limit : Nat) (query : Query) (unlimited : query.deadline.limitMs = none) (room depth : Nat)
    (left : depth + room = limit + 1) (question : String) (world : World Unit) :
    ((loopsWithin limit).runAt query depth "loop" question world).result =
      .error ((PipelineError.nestingTooDeep "loop" (limit + 1) limit).wrapped (List.replicate room loopLayer)) := by
  have isLimit : (loopsWithin limit).config.maxNestingDepth = limit := by rw [loops_config]
  induction room generalizing depth question world with
  | zero =>
      rw [(loopsWithin limit).run_at_beyond query depth (by omega), isLimit]
      rfl
  | succ room ih =>
      rw [(loopsWithin limit).run_at_found query depth (by omega) "loop" question loopPipeline (loops_found limit),
        List.replicate_succ, PipelineError.wrapped_cons]
      exact loop_run ((loopsWithin limit).engineAt query depth) unlimited
        ((loopsWithin limit).scopeAt query depth) rfl _
        (fun world => ih (depth + 1) (by omega) "and again" world) question world

theorem loops_are_configuration (limit : Nat) (question : String) (world : World Unit) :
    ∃ error, ((loopsWithin limit).run "loop" question world).result = .error error ∧
      error.core = .nestingTooDeep "loop" (limit + 1) limit ∧ error.layers.length = limit + 1 ∧
      error.failure.report.kind = .configuration := by
  have unlimited : (loopsWithin limit).config.queryTimeoutMs = none := by
    rw [loops_config]
    rfl
  let core := PipelineError.nestingTooDeep "loop" (limit + 1) limit
  let layers := List.replicate (limit + 1) loopLayer
  refine ⟨core.wrapped layers, ?_, ?_, ?_, ?_⟩
  · exact loops_run_at limit ((loopsWithin limit).queryFrom world) unlimited (limit + 1) 0 (Nat.zero_add _) question
      world
  · exact core.core_wrapped layers
  · rw [core.layers_wrapped layers, List.length_append, List.length_replicate]
    rfl
  · exact congrArg FailureClass.kind (core.wrapped_class layers)

end FilterPlan
