import FilterPlan.Proofs.Brackets
import FilterPlan.Proofs.Likeness

set_option autoImplicit false

namespace FilterPlan

def PipelineError.TooDeep (error : PipelineError) : Prop := ∃ name depth limit, error = .nestingTooDeep name depth limit

theorem PipelineError.of_run_shallow (error : PipelineError) (ofRun : error.OfRun) : ¬ error.TooDeep := by
  rintro ⟨name, depth, limit, rfl⟩
  exact ofRun

namespace Pipeline

variable {σ : Type}

theorem execute_of_run (pipeline : Pipeline σ) (engine : Engine σ) (plan : Plan) (world : World σ)
    (error : PipelineError) (failed : (pipeline.execute engine plan world).result = .error error) : error.OfRun := by
  have executed := pipeline.execute_writes engine plan world
  rw [failed] at executed
  generalize (pipeline.execute engine plan world).journal = journal at executed
  cases executed with
  | failed root planned opened started traced leaves inside error ofRun failureClass origin dealt => exact ofRun

theorem run_of_run (pipeline : Pipeline σ) (engine : Engine σ) (question : String) (world : World σ)
    (error : PipelineError) (failed : (pipeline.run engine question world).result = .error error) : error.OfRun := by
  have ran := pipeline.run_writes engine question world
  generalize (pipeline.run engine question world).journal = journal at ran
  generalize isResult : (pipeline.run engine question world).result = result at ran
  rw [isResult] at failed
  cases ran with
  | unplanned opened closed planning other ofPlanning quiet =>
      rw [← Except.error.inj failed]
      exact other.planning_of_run ofPlanning
  | executed opened closed planning plan later quiet checked =>
      exact pipeline.execute_of_run engine plan later error failed

end Pipeline

namespace Manager

variable {σ : Type}

def deeper (depth : Nat) : Nat := min (depth + 1) maxWord32

-- The rule by which requests are served at every depth: no more than one look at the limit. The requests that
-- come up in resolver calls of the run go to `inner`, and the calls that its resolvers make of the manager to `fresh`.
def serveAt (manager : Manager σ) (deadline : Deadline)
    (fresh : Call → Action σ ResolverError (Except PipelineError Answer))
    (inner : Nat → String → String → Action σ PipelineError IdentitySet) (depth : Nat) (name question : String) :
    Action σ PipelineError IdentitySet :=
  if manager.config.maxNestingDepth < depth then
    .fail (.nestingTooDeep name depth manager.config.maxNestingDepth)
  else
    .ofExcept (manager.find name) >>= fun pipeline =>
      pipeline.run ⟨manager.config, deadline, depth, some ⟨depth, inner (deeper depth), fresh⟩⟩ question

-- The rule unrolled into itself. What lies beyond the last level may be anything, also runs that never return.
def unrolled (manager : Manager σ) (deadline : Deadline)
    (fresh : Call → Action σ ResolverError (Except PipelineError Answer))
    (beyond : Nat → String → String → Action σ PipelineError IdentitySet) :
    (levels : Nat) → Nat → String → String → Action σ PipelineError IdentitySet
  | 0 => beyond
  | levels + 1 => manager.serveAt deadline fresh (manager.unrolled deadline fresh beyond levels)

theorem deeper_within (depth : Nat) (below : depth < maxWord32) : deeper depth = depth + 1 :=
  Nat.min_eq_left below

theorem serve_at_beyond (manager : Manager σ) (deadline : Deadline)
    (fresh : Call → Action σ ResolverError (Except PipelineError Answer))
    (inner : Nat → String → String → Action σ PipelineError IdentitySet) (depth : Nat)
    (beyond : manager.config.maxNestingDepth < depth) (name question : String) :
    manager.serveAt deadline fresh inner depth name question =
      .fail (.nestingTooDeep name depth manager.config.maxNestingDepth) := by
  rw [serveAt, if_pos beyond]

theorem engine_fresh_asks (manager : Manager σ) (deadline : Deadline)
    (fresh : Call → Action σ ResolverError (Except PipelineError Answer)) (depth : Nat) (registry : Registry σ)
    (asks : registry.Asks) :
    Engine.Alike (fun _ => True) registry (manager.engineAt (manager.outermost deadline) depth)
      ⟨manager.config, deadline, depth,
        some ⟨depth, manager.runAt (manager.outermost deadline) (depth + 1), fresh⟩⟩ :=
  Engine.scope_alike registry manager.config deadline depth _ _ (Nat.zero_add depth).symm
    (fun _ _ => Action.alike_refl _) (Or.inl asks)

-- Each level takes one step towards the limit, so the levels beyond it are never reached.
theorem unrolled_settles (manager : Manager σ) (asks : manager.Asks)
    (below : manager.config.maxNestingDepth < maxWord32) (deadline : Deadline)
    (fresh : Call → Action σ ResolverError (Except PipelineError Answer))
    (beyond : Nat → String → String → Action σ PipelineError IdentitySet) (levels depth : Nat)
    (reached : depth ≤ manager.config.maxNestingDepth + 1)
    (enough : manager.config.maxNestingDepth + 1 < depth + levels) :
    manager.unrolled deadline fresh beyond levels depth = manager.runAt (manager.outermost deadline) depth := by
  induction levels generalizing depth with
  | zero => omega
  | succ levels ih =>
      funext name question
      rw [unrolled]
      by_cases within : depth ≤ manager.config.maxNestingDepth
      · have counted : deeper depth = depth + 1 := deeper_within depth (by omega)
        have inner := ih (depth + 1) (by omega) (by omega)
        rw [serveAt, if_neg (Nat.not_lt_of_le within), counted, inner, manager.run_at_within _ depth within]
        exact Action.alike_same (Action.alike_of_except fun pipeline found =>
          pipeline.run_alike (manager.engine_fresh_asks deadline fresh depth _ (asks name pipeline found)) question)
      · have isBeyond : depth = manager.config.maxNestingDepth + 1 := by omega
        rw [serve_at_beyond _ _ _ _ _ (by omega), run_at_beyond _ _ _ (by omega), isBeyond]

def Counts (manager : Manager σ) (run : Run σ) : Prop := run.manager = manager ∧ run.depth = run.level

theorem deeper_counts (manager : Manager σ) (deadline : Deadline) (depth : Nat) :
    manager.Deeper (Journal.Brackets manager.Counts) ⟨deadline, 0, 0⟩ depth := by
  have overflows (level : Nat) (call : Call) (world : World σ) :
      (manager.meetWithin 0 level call world).journal.Brackets manager.Counts level := by
    rw [meet_within_none]
    exact Journal.nests_brackets _ _ _ (Journal.flat_nests _ _ _ (by simp [Event.Inner]))
  have ran (room : Nat) : ∀ depth, manager.config.maxNestingDepth + 1 - depth = room → ∀ name question world,
      (manager.runAt ⟨deadline, 0, 0⟩ depth name question world).journal.Brackets manager.Counts (0 + depth) := by
    induction room with
    | zero =>
        exact fun depth isRoom => manager.run_at_kept _ (Journal.brackets_nothing _ _) _ depth
          fun _ _ _ _ within => by omega
    | succ room ih =>
        exact fun depth isRoom => manager.run_at_kept _ (Journal.brackets_nothing _ _) _ depth
          fun name question pipeline world within found => manager.run_at_kind _ ⟨deadline, 0, 0⟩ depth within name
            question pipeline found world ⟨rfl, (Nat.zero_add depth).symm⟩
            ⟨ih (depth + 1) (by omega), overflows (0 + depth + 1)⟩
  exact ⟨ran _ (depth + 1) rfl, overflows (0 + depth + 1)⟩

theorem step_counts (manager : Manager σ) (asks : manager.Asks) (step : Step σ) (world : World σ) :
    (step.journal manager world).Brackets manager.Counts 0 := by
  refine manager.step_kept (Journal.Brackets manager.Counts 0) (Journal.brackets_nothing _ 0) ?_ ?_ step world
  · intro deadline
    rw [← manager.run_at_asks asks (manager.outermost deadline) 0 0]
    exact manager.run_at_kept _ (Journal.brackets_nothing _ 0) _ 0 fun name question pipeline world within found =>
      manager.run_at_kind _ ⟨deadline, 0, 0⟩ 0 within name question pipeline found world ⟨rfl, rfl⟩
        (manager.deeper_counts deadline 0)
  · intro deadline name pipeline plan world found
    rw [← manager.execute_at_asks asks (manager.outermost deadline) 0 name pipeline found plan]
    exact Journal.nests_brackets _ _ _ (manager.executed_nests _ ⟨deadline, 0, 0⟩ 0 pipeline plan
      (manager.deeper_counts deadline 0) _ _ (pipeline.execute_writes _ plan world))

theorem find_shallow (manager : Manager σ) (name : String) (error : PipelineError)
    (unknown : manager.find name = .error error) : ¬ error.TooDeep := by
  rw [find] at unknown
  cases listed : manager.pipelines.find? name with
  | some pipeline => simp [listed] at unknown
  | none =>
      rw [listed] at unknown
      rw [← Except.error.inj unknown]
      simp [PipelineError.TooDeep]

theorem run_at_shallow (manager : Manager σ) (query : Query) (depth : Nat)
    (within : depth ≤ manager.config.maxNestingDepth) (name question : String) (world : World σ) (error : PipelineError)
    (failed : (manager.runAt query depth name question world).result = .error error) : ¬ error.TooDeep := by
  cases found : manager.find name with
  | error unknown =>
      rw [manager.run_at_within query depth within, found] at failed
      have isUnknown : unknown = error := Except.error.inj failed
      exact manager.find_shallow name error (isUnknown ▸ found)
  | ok pipeline =>
      rw [manager.run_at_found query depth within name question pipeline found] at failed
      exact error.of_run_shallow (pipeline.run_of_run _ question world error failed)

theorem run_shallow (manager : Manager σ) (name question : String) (world : World σ) (error : PipelineError)
    (failed : (manager.run name question world).result = .error error) : ¬ error.TooDeep := by
  rw [run_from_start, start_then] at failed
  exact manager.run_at_shallow _ 0 (Nat.zero_le _) name question world error failed

theorem execute_shallow (manager : Manager σ) (name : String) (plan : Plan) (world : World σ) (error : PipelineError)
    (failed : (manager.execute name plan world).result = .error error) : ¬ error.TooDeep := by
  rw [execute_from_start] at failed
  cases found : manager.find name with
  | error unknown =>
      rw [found] at failed
      have isUnknown : unknown = error := Except.error.inj failed
      exact manager.find_shallow name error (isUnknown ▸ found)
  | ok pipeline =>
      rw [found] at failed
      exact error.of_run_shallow (pipeline.execute_of_run _ plan world error failed)

theorem answer_shallow (manager : Manager σ) (question : String) (world : World σ) (error : PipelineError)
    (failed : (manager.answer question world).result = .error error) : ¬ error.TooDeep := by
  rcases manager.answer_writes question world with ⟨_, other, isOther, ofChoice⟩ | ⟨name, later, _, same⟩
  · rw [← Except.error.inj (isOther.symm.trans failed)]
    rintro ⟨name, depth, limit, rfl⟩
    exact ofChoice
  · rw [failed] at same
    cases ended : (manager.run name question later).result with
    | ok rows => simp [ended, Except.map] at same
    | error other =>
        rw [ended] at same
        rw [Except.error.inj same]
        exact manager.run_shallow name question later other ended

structure BoundedRuns (manager : Manager σ) : Prop where
  run_settles : ∀ (fresh : Call → Action σ ResolverError (Except PipelineError Answer))
    (beyond : Nat → String → String → Action σ PipelineError IdentitySet) (levels : Nat),
    manager.config.maxNestingDepth + 1 < levels → ∀ name question, manager.run name question =
      (Deadline.start manager.config.queryTimeoutMs >>= fun deadline =>
        manager.unrolled deadline fresh beyond levels 0 name question)
  execute_settles : ∀ (fresh : Call → Action σ ResolverError (Except PipelineError Answer))
    (beyond : Nat → String → String → Action σ PipelineError IdentitySet) (levels : Nat),
    manager.config.maxNestingDepth < levels → ∀ name plan, manager.execute name plan =
      (.ofExcept (manager.find name) >>= fun pipeline =>
        Deadline.start manager.config.queryTimeoutMs >>= fun deadline =>
          pipeline.execute ⟨manager.config, deadline, 0,
            some ⟨0, manager.unrolled deadline fresh beyond levels (deeper 0), fresh⟩⟩ plan)
  started : ∀ (step : Step σ) (world : World σ), ∃ runs, Bracketed 0 (step.journal manager world) runs ∧
    ∀ run ∈ runs, run.manager = manager ∧ run.depth = run.level ∧ run.depth ≤ manager.config.maxNestingDepth
  start_marks : ∀ (step : Step σ) (world : World σ), ∀ entry ∈ step.journal manager world, ∀ name nested,
    entry.event = .counted (.pipelineStart name nested) → entry.site.depth ≤ manager.config.maxNestingDepth
  -- A run at the limit asks at the depth beyond it, and is refused under any name: nothing is done or written.
  counted : ∀ depth, depth ≤ manager.config.maxNestingDepth → deeper depth = depth + 1
  refused : ∀ deadline fresh inner name question world,
    manager.serveAt deadline fresh inner (manager.config.maxNestingDepth + 1) name question world =
      ⟨.error (.nestingTooDeep name (manager.config.maxNestingDepth + 1) manager.config.maxNestingDepth), world, []⟩
  told_so : ∀ query name question world,
    (manager.engineAt query manager.config.maxNestingDepth).serve.ask name question world =
      ⟨.error (.nested (.nestingTooDeep name (manager.config.maxNestingDepth + 1) manager.config.maxNestingDepth)),
        world, []⟩
  run_admitted : ∀ name question world error,
    (manager.run name question world).result = .error error → ¬ error.TooDeep
  answer_admitted : ∀ question world error,
    (manager.answer question world).result = .error error → ¬ error.TooDeep
  execute_admitted : ∀ name plan world error,
    (manager.execute name plan world).result = .error error → ¬ error.TooDeep

-- Runs of pipelines nest no deeper than the limit, and therefore end, however their pipelines ask for each other.
theorem runs_bounded (manager : Manager σ) (asks : manager.Asks)
    (below : manager.config.maxNestingDepth < maxWord32) : manager.BoundedRuns := by
  have started (step : Step σ) (world : World σ) : ∃ runs, Bracketed 0 (step.journal manager world) runs ∧
      ∀ run ∈ runs, run.manager = manager ∧ run.depth = run.level ∧
        run.depth ≤ manager.config.maxNestingDepth := by
    obtain ⟨runs, bracketed, known⟩ := manager.step_counts asks step world
    refine ⟨runs, bracketed, fun run inside => ⟨(known run inside).1, (known run inside).2, ?_⟩⟩
    have within := bracketed.within_limit _ _ _ run inside
    rwa [(known run inside).1] at within
  refine ⟨?_, ?_, started, ?_, ?_, ?_, ?_, manager.run_shallow, manager.answer_shallow, manager.execute_shallow⟩
  · intro fresh beyond levels enough name question
    rw [run_from_start]
    congr 1
    funext deadline
    rw [manager.unrolled_settles asks below deadline fresh beyond levels 0 (Nat.zero_le _) (by omega)]
  · intro fresh beyond levels enough name plan
    rw [execute_from_start]
    symm
    refine Action.alike_same (Action.alike_of_except fun pipeline found =>
      Action.alike_bind (Action.alike_refl _) fun deadline => ?_)
    rw [deeper_within 0 (by decide),
      manager.unrolled_settles asks below deadline fresh beyond levels (0 + 1) (by omega) (by omega)]
    exact pipeline.execute_alike (manager.engine_fresh_asks deadline fresh 0 _ (asks name pipeline found)) plan
  · intro step world entry inside name nested starts
    obtain ⟨runs, bracketed, known⟩ := started step world
    obtain ⟨run, among, isSite, _⟩ := bracketed.starts _ _ _ name nested entry inside starts
    rw [← isSite]
    exact (known run among).2.2
  · intro depth within
    exact deeper_within depth (by omega)
  · intro deadline fresh inner name question world
    rw [manager.serve_at_beyond deadline fresh inner _ (Nat.lt_succ_self _)]
    rfl
  · intro query name question world
    rw [Engine.serve, engineAt]
    dsimp only [scopeAt]
    rw [manager.run_at_beyond query _ (Nat.lt_succ_self _)]
    rfl

end Manager

def loopRegistry : Registry Unit :=
  match (Registry.empty : Registry Unit).register ⟨"again", "Ask again."⟩ (.nested "loop" .ok) with
  | .ok registry => registry
  | .error _ => .empty

def loopPipeline : Pipeline Unit :=
  ⟨"loop", "Loops", loopRegistry, .empty, fun _ state => ⟨.ok (.ofNode (.leaf ⟨"again", "and again"⟩)), state, 0⟩, none⟩

def loopManager : Manager Unit :=
  match Manager.add (.bare { Config.default with maxNestingDepth := 2 } none) "loop" loopPipeline with
  | .ok manager => manager
  | .error _ => .bare .default none

theorem loop_only : loopManager = .only { Config.default with maxNestingDepth := 2 } "loop" loopPipeline := by
  unfold loopManager Manager.only
  cases Manager.add _ "loop" loopPipeline <;> rfl

theorem loop_limit : loopManager.config.maxNestingDepth = 2 := by
  rw [loop_only, Manager.only_config]

theorem loop_found : loopManager.find "loop" = .ok loopPipeline := by
  rw [loop_only]
  exact Manager.only_find _ "loop" loopPipeline

theorem loop_asks : loopManager.Asks := by
  rw [loop_only]
  apply Manager.only_asks
  change loopRegistry.Asks
  unfold loopRegistry
  split
  case h_1 registry registered =>
    exact Registry.register_asks _ registry _ _ registered Registry.empty_asks fun _ _ _ => trivial
  case h_2 => exact Registry.empty_asks

theorem runs_bounded_loop :
    loopManager.Asks ∧ loopManager.config.maxNestingDepth < maxWord32 ∧
      (∃ runs, Bracketed 0 ((Step.run "loop" "forever").journal loopManager ⟨(), 0⟩) runs ∧
        runs ≠ [] ∧ ∀ run ∈ runs, run.manager = loopManager ∧ run.depth = run.level ∧ run.depth ≤ 2) ∧
      ∀ name, (loopManager.engineAt (loopManager.outermost .unbounded) 2).serve.ask name "and again" ⟨(), 0⟩ =
        ⟨.error (.nested (.nestingTooDeep name 3 2)), ⟨(), 0⟩, []⟩ := by
  have below : loopManager.config.maxNestingDepth < maxWord32 := by
    rw [loop_limit]
    decide
  have bounded := loopManager.runs_bounded loop_asks below
  refine ⟨loop_asks, below, ?_, fun name => ?_⟩
  · obtain ⟨runs, bracketed, known⟩ := bounded.started (.run "loop" "forever") ⟨(), 0⟩
    rw [loop_limit] at known
    refine ⟨runs, bracketed, ?_, known⟩
    obtain ⟨nested, opened, _⟩ := loopManager.run_at_bracket loopManager.Owns
      (loopManager.outermost ⟨0, loopManager.config.queryTimeoutMs⟩) 0 (Nat.zero_le _)
      "loop" "forever" loopPipeline loop_found ⟨(), 0⟩ (loopManager.deeper_brackets _ 0)
    obtain ⟨time, inside⟩ := opened.marked _ _ _ _ List.mem_cons_self
    obtain ⟨run, among, _⟩ := bracketed.starts _ _ _ _ _ _ inside rfl
    exact List.ne_nil_of_mem among
  · have told := bounded.told_so (loopManager.outermost .unbounded) name "and again" ⟨(), 0⟩
    rwa [loop_limit] at told

end FilterPlan
