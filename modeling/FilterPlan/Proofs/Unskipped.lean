import FilterPlan.Proofs.Nesting
import FilterPlan.Proofs.Vetting

set_option autoImplicit false

namespace FilterPlan

def Event.Skips : Event → Prop
  | .counted .leafSkipped | .traced _ (.leafSkipped _ _) => True
  | _ => False

instance : DecidablePred Event.Skips := fun event => by
  unfold Event.Skips
  split <;> exact inferInstance

def Journal.Unskipped (journal : Journal) : Prop := ∀ entry ∈ journal, ¬ entry.event.Skips

namespace Journal

@[simp] theorem unskipped_nil : Unskipped [] := by
  simp [Unskipped]

@[simp] theorem unskipped_cons (entry : Entry) (rest : Journal) :
    Unskipped (entry :: rest) ↔ ¬ entry.event.Skips ∧ Unskipped rest := by
  simp [Unskipped]

@[simp] theorem unskipped_append (before after : Journal) :
    Unskipped (before ++ after) ↔ Unskipped before ∧ Unskipped after := by
  simp [Unskipped, or_imp, forall_and]

end Journal

theorem Event.plain_unskipped (event : Event) (plain : event.Plain) : ¬ event.Skips := by
  cases event with
  | counted metric => cases metric <;> simp_all [Plain, Skips]
  | _ => simp_all [Plain, Skips]

theorem Evaluation.dealt_unskipped {σ : Type} (evaluation : Evaluation σ)
    (rejects : evaluation.engine.config.missingFilter = .reject)
    (within : ∀ journal, evaluation.engine.Served journal → journal.Unskipped)
    (leaves : List PlacedLeaf) (journal : Journal) (dealt : evaluation.Dealt leaves journal) : journal.Unskipped := by
  induction dealt with
  | nothing => exact Journal.unskipped_nil
  | plain time event isPlain _ ih => exact (Journal.unskipped_cons _ _).mpr ⟨event.plain_unskipped isPlain, ih⟩
  | called opened closed path filter instruction attempt outcome served _ ih =>
      simp [Event.Skips, within _ served, ih]
  | resolved counted traced placed rows attempts _ ih => simp [Event.Skips, ih]
  | skipped counted traced placed tolerated _ ih =>
      rw [rejects] at tolerated
      cases tolerated

namespace Manager

variable {σ : Type}

theorem served_unskipped (manager : Manager σ) (query : Query) (depth : Nat)
    (deeper : manager.Deeper (fun _ journal => journal.Unskipped) query depth) (journal : Journal)
    (served : (manager.engineAt query depth).Served journal) : journal.Unskipped :=
  manager.served_kept (fun _ journal => journal.Unskipped) (fun _ => Journal.unskipped_nil)
    (fun _ _ _ first second => (Journal.unskipped_append _ _).mpr ⟨first, second⟩) query depth deeper journal served

theorem execute_unskipped (manager : Manager σ) (rejects : manager.config.missingFilter = .reject)
    (query : Query) (depth : Nat) (deeper : manager.Deeper (fun _ journal => journal.Unskipped) query depth)
    (pipeline : Pipeline σ) (plan : Plan) (world : World σ) :
    (pipeline.execute (manager.engineAt query depth) plan world).journal.Unskipped := by
  have executed := pipeline.execute_writes (manager.engineAt query depth) plan world
  generalize (pipeline.execute (manager.engineAt query depth) plan world).result = result at executed
  generalize (pipeline.execute (manager.engineAt query depth) plan world).journal = journal at executed ⊢
  cases executed with
  | unfiltered isUnfiltered counted traced => simp [Event.Skips]
  | merged root planned opened started counted traced leaves inside rows dealt all =>
      have unskipped := Evaluation.dealt_unskipped _ rejects (manager.served_unskipped query depth deeper) leaves
        inside dealt
      simp [Evaluation.opening, Event.Skips, unskipped]
  | failed root planned opened started traced leaves inside error ofRun failureClass origin dealt =>
      have unskipped := Evaluation.dealt_unskipped _ rejects (manager.served_unskipped query depth deeper) leaves
        inside dealt
      simp [Evaluation.opening, Event.Skips, unskipped]

theorem run_unskipped (manager : Manager σ) (rejects : manager.config.missingFilter = .reject) (query : Query)
    (depth : Nat) (deeper : manager.Deeper (fun _ journal => journal.Unskipped) query depth) (pipeline : Pipeline σ)
    (question : String) (world : World σ) :
    (pipeline.run (manager.engineAt query depth) question world).journal.Unskipped := by
  have ran := pipeline.run_writes (manager.engineAt query depth) question world
  generalize (pipeline.run (manager.engineAt query depth) question world).result = result at ran
  generalize (pipeline.run (manager.engineAt query depth) question world).journal = journal at ran ⊢
  have planned (planning : Journal) (quiet : (manager.engineAt query depth).Quiet planning) : planning.Unskipped :=
    fun entry inside => entry.event.plain_unskipped (quiet entry inside).2
  have closes (result : Except PipelineError IdentitySet) :
      ¬ (Event.counted (Pipeline.closing pipeline.name result)).Skips := by
    cases result <;> simp [Pipeline.closing, Event.Skips]
  cases ran with
  | unplanned opened closed planning error ofPlanning quiet =>
      exact (Journal.unskipped_cons _ _).mpr ⟨id, (Journal.unskipped_append _ _).mpr ⟨planned planning quiet,
        (Journal.unskipped_cons _ _).mpr ⟨closes _, Journal.unskipped_nil⟩⟩⟩
  | executed opened closed planning plan later quiet checked =>
      have unskipped := manager.execute_unskipped rejects query depth deeper pipeline plan later
      exact (Journal.unskipped_cons _ _).mpr ⟨id, (Journal.unskipped_append _ _).mpr
        ⟨(Journal.unskipped_append _ _).mpr ⟨planned planning quiet, unskipped⟩,
          (Journal.unskipped_cons _ _).mpr ⟨closes _, Journal.unskipped_nil⟩⟩⟩

theorem rejecting_unskipped (manager : Manager σ) (rejects : manager.config.missingFilter = .reject) (query : Query)
    (depth : Nat) (name question : String) (world : World σ) :
    (manager.runAt query depth name question world).journal.Unskipped := by
  have ran (query : Query) (depth : Nat) (name question : String) (pipeline : Pipeline σ) (world : World σ)
      (within : depth ≤ manager.config.maxNestingDepth) (found : manager.find name = .ok pipeline)
      (deeper : manager.Deeper (fun _ journal => journal.Unskipped) query depth) :
      (manager.runAt query depth name question world).journal.Unskipped := by
    rw [manager.run_at_found query depth within name question pipeline found]
    exact manager.run_unskipped rejects query depth deeper pipeline question world
  have deeper (query : Query) (depth : Nat) : manager.Deeper (fun _ journal => journal.Unskipped) query depth :=
    manager.deeper_kept (fun _ journal => journal.Unskipped) (fun _ => Journal.unskipped_nil)
      (fun level deadline time => by simp [Event.Skips]) ran
      (fun query name pipeline plan world found deeper =>
        manager.execute_unskipped rejects query 0 deeper pipeline plan world) query depth
  exact manager.run_at_kept _ Journal.unskipped_nil query depth (fun name question pipeline world within found =>
    ran query depth name question pipeline world within found (deeper query depth)) name question world

-- Where the policy makes no difference to runs, they skip as little as those of a manager that never skips.
theorem run_at_unskipped (manager : Manager σ) (asks : manager.Asks) (query : Query) (depth : Nat)
    (name question : String) (world : World σ) : (manager.runAt query depth name question world).journal.Unskipped := by
  rw [← manager.run_at_same asks .reject query depth]
  exact (manager.withMissing .reject).rejecting_unskipped rfl query depth name question world

end Manager

def EvaluateError.Registered : EvaluateError → Prop
  | .registry _ => False
  | _ => True

def PipelineError.Registered : PipelineError → Prop
  | .evaluate error => error.Registered
  | _ => True

theorem EvaluateError.timeout_registered (error : EvaluateError) (late : error.isTimeout = true) :
    error.Registered := by
  cases error <;> simp_all [isTimeout, Registered]

theorem PipelineError.planning_registered (error : PipelineError) (ofPlanning : error.OfPlanning) :
    error.Registered := by
  cases error <;> simp_all [OfPlanning, Registered, EvaluateError.timeout_registered]

theorem PipelineError.choice_registered (error : PipelineError) (ofChoice : error.OfChoice) : error.Registered := by
  cases error <;> trivial

namespace Evaluation

variable {σ : Type}

theorem check_registered (deadline : Deadline) :
    (deadline.check : Action σ EvaluateError Unit).Fails EvaluateError.Registered :=
  deadline.check_writes fun _ late error failed => error.timeout_registered (late error failed)

theorem call_registered (evaluation : Evaluation σ) (placed : PlacedLeaf) (resolver : Resolver σ) (attempt : Nat) :
    (evaluation.call placed resolver attempt).Fails EvaluateError.Registered := by
  rw [call]
  exact Action.bind_fails (check_registered _) fun _ => Action.bind_fails (Action.record_fails _ _ _) fun _ =>
    Action.bind_fails (Action.attempt_fails _ _) fun outcome => Action.bind_fails (Action.record_fails _ _ _) fun _ =>
      Action.bind_fails (check_registered _) fun _ => Action.pure_fails outcome _

theorem rows_of_registered (evaluation : Evaluation σ) (placed : PlacedLeaf) (resolver : Resolver σ)
    (retries attempt : Nat) : (evaluation.rowsOf placed resolver retries attempt).Fails EvaluateError.Registered := by
  have accepts (attempt : Nat) (rows : IdentitySet) :
      (evaluation.accept placed attempt rows).Fails EvaluateError.Registered :=
    Action.bind_fails (Action.count_fails _ _ _) fun _ => Action.bind_fails (Action.record_fails _ _ _) fun _ =>
      Action.pure_fails rows _
  have givesUp (attempt : Nat) (source : ResolverError) :
      (evaluation.giveUp placed attempt source).Fails EvaluateError.Registered :=
    Action.bind_fails (Action.count_fails _ _ _) fun _ => Action.fail_fails trivial
  induction retries generalizing attempt with
  | zero =>
      rw [rowsOf]
      refine Action.bind_fails (evaluation.call_registered placed resolver attempt) fun outcome => ?_
      cases outcome with
      | ok rows => exact accepts attempt rows
      | error source => exact givesUp attempt source
  | succ retries ih =>
      rw [rowsOf]
      refine Action.bind_fails (evaluation.call_registered placed resolver attempt) fun outcome => ?_
      cases outcome with
      | ok rows => exact accepts attempt rows
      | error source =>
          by_cases passing : source.isTransient
          · simp only [passing, if_true]
            exact Action.bind_fails (Action.count_fails _ _ _) fun _ => ih (attempt + 1)
          · simp only [passing]
            exact givesUp attempt source

theorem resolve_all_registered (evaluation : Evaluation σ) (leaves : List PlacedLeaf)
    (known : evaluation.Knows leaves) : (evaluation.resolveAll leaves).Fails EvaluateError.Registered := by
  induction leaves with
  | nil => exact Action.done_fails _ _
  | cons placed rest ih =>
      obtain ⟨filter, found⟩ := (evaluation.registry.contains_find _).mp (known placed List.mem_cons_self)
      have resolves : (evaluation.resolve placed).Fails EvaluateError.Registered := by
        rw [resolve, found]
        exact evaluation.rows_of_registered placed filter.resolver _ 0
      rw [resolveAll]
      exact Action.bind_fails resolves fun rows => Action.bind_fails
        (ih fun other inside => known other (List.mem_cons_of_mem _ inside)) fun others => Action.pure_fails _ _

theorem fill_registered (results : List (Path × IdentitySet)) (store : Store) (error : EvaluateError)
    (failed : fill results store = .error error) : error.Registered := by
  fun_induction fill results store with
  | case1 => cases failed
  | case2 path rows rest store next inserted ih => exact ih failed
  | case3 path rows rest store next refused =>
      rw [← Except.error.inj failed]
      trivial

theorem evaluate_node_registered (evaluation : Evaluation σ) (node : Node) (base : Path)
    (known : evaluation.Knows (node.placedLeaves base)) :
    (evaluation.evaluateNode node base).Fails EvaluateError.Registered := by
  have stores : (evaluation.storeLeaves (node.placedLeaves base)).Fails EvaluateError.Registered := by
    rw [storeLeaves, evaluation.choose_known _ known]
    refine Action.bind_fails (Action.count_fails _ _ _) fun _ =>
      Action.bind_fails (Action.record_fails _ _ _) fun _ => ?_
    change (evaluation.resolveAll (node.placedLeaves base) >>= _).Fails _
    exact Action.bind_fails (evaluation.resolve_all_registered _ known) fun results =>
      Action.of_except_writes fun error => fill_registered results .empty error
  have faults (error : EvaluateError) : (evaluation.fault error).Fails EvaluateError.Registered := by
    intro world
    rw [fault_outcome]
    simp
  rw [evaluateNode]
  exact Action.on_failure_fails stores faults

end Evaluation

namespace Pipeline

variable {σ : Type}

theorem execute_registered (pipeline : Pipeline σ) (engine : Engine σ) (plan : Plan)
    (checked : pipeline.Checked plan) : (pipeline.execute engine plan).Fails PipelineError.Registered := by
  have counts (metric : Metric) : ((Evaluation.ofPlan engine pipeline.registry plan).count metric : Action σ
      PipelineError Unit).Fails PipelineError.Registered := Action.count_fails _ _ _
  have traces (note : TraceNote) : ((Evaluation.ofPlan engine pipeline.registry plan).trace note : Action σ
      PipelineError Unit).Fails PipelineError.Registered := Action.record_fails _ _ _
  cases planned : plan.root with
  | none =>
      rw [pipeline.execute_unfiltered engine plan planned]
      exact Action.bind_fails (counts _) fun _ => Action.bind_fails (traces _) fun _ => Action.pure_fails _ _
  | some root =>
      have evaluates := (Evaluation.ofPlan engine pipeline.registry plan).evaluate_node_registered root []
        (pipeline.checked_placed plan checked root planned)
      rw [pipeline.execute_filtered engine plan root planned]
      refine Action.bind_fails (Action.map_error_fails evaluates) fun store => Action.bind_fails ?_ fun rows =>
        Action.bind_fails (counts _) fun _ => Action.bind_fails (traces _) fun _ => Action.pure_fails _ _
      rw [merge]
      cases store.merge (Evaluation.ofPlan engine pipeline.registry plan).engine.config.missingOperand with
      | ok rows => exact Action.done_fails _ _
      | error error => exact Action.bind_fails (traces _) fun _ => Action.fail_fails trivial

theorem run_registered (pipeline : Pipeline σ) (engine : Engine σ) (question : String) :
    (pipeline.run engine question).Fails PipelineError.Registered := by
  refine Action.writes_weaken (pipeline.run_writes engine question) fun result journal ran error failed => ?_
  cases ran with
  | unplanned opened closed planning other ofPlanning quiet =>
      rw [← Except.error.inj failed]
      exact other.planning_registered ofPlanning
  | executed opened closed planning plan later quiet checked =>
      exact pipeline.execute_registered engine plan checked later error failed

end Pipeline

namespace Manager

variable {σ : Type}

theorem run_at_registered (manager : Manager σ) (query : Query) (depth : Nat) (name question : String) :
    (manager.runAt query depth name question).Fails PipelineError.Registered := by
  by_cases within : depth ≤ manager.config.maxNestingDepth
  · rw [manager.run_at_within query depth within, find]
    cases manager.pipelines.find? name with
    | none => exact Action.fail_fails trivial
    | some pipeline => exact pipeline.run_registered _ question
  · rw [manager.run_at_beyond query depth (by omega)]
    exact Action.fail_fails trivial

structure Vetted (manager : Manager σ) : Prop where
  planned : ∀ (pipeline : Pipeline σ) (engine : Engine σ) question world plan,
    (pipeline.generatePlan engine question world).result = .ok plan →
      ∀ leaf ∈ plan.leaves, ∃ filter, pipeline.registry.find leaf.filter = .ok filter
  run_unskipped : ∀ name question world, (manager.run name question world).journal.Unskipped
  answer_unskipped : ∀ question world, (manager.answer question world).journal.Unskipped
  registered : ∀ query depth name question world error,
    (manager.runAt query depth name question world).result = .error error → error.Registered
  run_registered : ∀ name question world error,
    (manager.run name question world).result = .error error → error.Registered
  answer_registered : ∀ question world error,
    (manager.answer question world).result = .error error → error.Registered
  run_same : ∀ policy name question, (manager.withMissing policy).run name question = manager.run name question
  answer_same : ∀ policy question, (manager.withMissing policy).answer question = manager.answer question

-- Runs never come to the policy for filters that are not registered.
theorem plans_vetted (manager : Manager σ) (asks : manager.Asks) : manager.Vetted := by
  have unskipped (name question : String) (world : World σ) : (manager.run name question world).journal.Unskipped :=
    manager.begin_run_kept Journal.Unskipped manager.stack 0
      (fun deadline => manager.run_at_unskipped asks ⟨deadline, 0, manager.stack⟩ 0) name question world
  have registered (name question : String) : (manager.run name question).Fails PipelineError.Registered := by
    rw [run_from_start]
    exact fun world => manager.run_at_registered (manager.queryFrom world) 0 name question world
  refine ⟨?_, unskipped, ?_, fun query depth name question world error => ?_, fun name question => ?_, ?_,
    manager.run_same asks, manager.answer_same asks⟩
  · intro pipeline engine question world plan isPlan
    have planned := pipeline.plan_for_writes engine question (min engine.config.planRetries (maxWord32 - 1)) 0 none
      world
    rw [Pipeline.generatePlan] at isPlan
    rw [isPlan] at planned
    exact pipeline.checked_known plan (planned.accepts plan rfl)
  · intro question world
    rcases manager.answer_writes question world with ⟨silent, _⟩ | ⟨name, later, same, _⟩
    · rw [silent]
      exact Journal.unskipped_nil
    · rw [same]
      exact unskipped name question later
  · exact manager.run_at_registered query depth name question world error
  · exact registered name question
  · intro question world error failed
    rcases manager.answer_writes question world with ⟨_, other, isOther, ofChoice⟩ | ⟨name, later, _, same⟩
    · rw [← Except.error.inj (isOther.symm.trans failed)]
      exact other.choice_registered ofChoice
    · rw [failed] at same
      cases ended : (manager.run name question later).result with
      | ok rows => simp [ended, Except.map] at same
      | error other =>
          rw [ended] at same
          rw [Except.error.inj same]
          exact registered name question later other ended

end Manager

theorem plans_vetted_loop :
    (loopManager.withMissing .skip).Asks ∧
      ((loopManager.withMissing .skip).run "loop" "forever" ⟨(), 0⟩).journal.Unskipped ∧
      ((loopManager.withMissing .skip).answer "forever" ⟨(), 0⟩).journal.Unskipped ∧
      ((loopManager.withMissing .skip).withMissing .reject).run "loop" "forever" =
        (loopManager.withMissing .skip).run "loop" "forever" := by
  have asks : (loopManager.withMissing .skip).Asks := loop_asks
  have vetted := (loopManager.withMissing .skip).plans_vetted asks
  exact ⟨asks, vetted.run_unskipped "loop" "forever" ⟨(), 0⟩, vetted.answer_unskipped "forever" ⟨(), 0⟩,
    vetted.run_same .reject "loop" "forever"⟩

end FilterPlan
