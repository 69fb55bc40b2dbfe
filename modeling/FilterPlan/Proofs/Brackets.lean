import FilterPlan.Proofs.Session

set_option autoImplicit false

namespace FilterPlan

structure Run (σ : Type) where
  manager : Manager σ
  query : Query
  depth : Nat
  requested : String
  question : String
  world : World σ

namespace Run

variable {σ : Type}

def outcome (run : Run σ) : Outcome σ PipelineError IdentitySet :=
  run.manager.runAt run.query run.depth run.requested run.question run.world

def name (run : Run σ) : String :=
  match run.manager.find run.requested with
  | .ok pipeline => pipeline.name
  | .error _ => run.requested

def level (run : Run σ) : Nat := run.query.level + run.depth

def site (run : Run σ) : Site := ⟨run.depth, run.level, run.query.deadline⟩

def opening (run : Run σ) (time : Nat) : Entry :=
  ⟨run.site, time, .counted (.pipelineStart run.name (run.depth > 0))⟩

def closing (run : Run σ) (time : Nat) : Entry :=
  ⟨run.site, time, .counted (Pipeline.closing run.name run.outcome.result)⟩

end Run

def Event.Inner : Event → Prop
  | .counted (.pipelineStart _ _) | .counted (.pipelineFinish _ _) | .counted (.pipelineError _)
  | .resolverCalled _ _ _ _ | .resolverReturned _ _ => False
  | _ => True

theorem Event.plain_inner (event : Event) (plain : event.Plain) : event.Inner := by
  cases event with
  | counted metric => cases metric <;> simp_all [Plain, Inner]
  | _ => simp_all [Plain, Inner]

/-- Journals in which the events of runs are balanced brackets. The level is the number of resolver calls that are
open: every run stands at its level, is told to be nested iff it is not the first of its query, and between its two
marks is all that the request wrote. The runs are listed in the order of their beginnings. -/
inductive Bracketed {σ : Type} : (level : Nat) → Journal → List (Run σ) → Prop where
  | nothing (level : Nat) : Bracketed level [] []
  | inner {rest : Journal} {runs : List (Run σ)} (site : Site) (time : Nat) (event : Event) (isInner : event.Inner)
      (later : Bracketed site.level rest runs) : Bracketed site.level (⟨site, time, event⟩ :: rest) runs
  | call {inside rest : Journal} {nested runs : List (Run σ)} (site : Site) (opened closed : Nat) (path : Path)
      (filter instruction : String) (attempt : Nat) (outcome : Except ResolverError IdentitySet)
      (within : Bracketed (site.level + 1) inside nested) (later : Bracketed site.level rest runs) :
      Bracketed site.level (⟨site, opened, .resolverCalled path filter instruction attempt⟩ ::
        (inside ++ ⟨site, closed, .resolverReturned path outcome⟩ :: rest)) (nested ++ runs)
  | run {inside rest : Journal} {nested runs : List (Run σ)} (run : Run σ) (opened closed : Nat)
      (isJournal : run.outcome.journal = run.opening opened :: (inside ++ [run.closing closed]))
      (within : Bracketed run.level inside nested) (later : Bracketed run.level rest runs) :
      Bracketed run.level (run.opening opened :: (inside ++ run.closing closed :: rest)) (run :: (nested ++ runs))

namespace Bracketed

variable {σ : Type}

theorem append (level : Nat) (before after : Journal) (first second : List (Run σ))
    (bracketedBefore : Bracketed level before first) (bracketedAfter : Bracketed level after second) :
    Bracketed level (before ++ after) (first ++ second) := by
  induction bracketedBefore with
  | nothing level => exact bracketedAfter
  | inner site time event isInner _ ih => exact .inner site time event isInner (ih bracketedAfter)
  | call site opened closed path filter instruction attempt outcome within _ _ ih =>
      simpa using Bracketed.call site opened closed path filter instruction attempt outcome within (ih bracketedAfter)
  | run run opened closed isJournal within _ _ ih =>
      simpa using Bracketed.run run opened closed isJournal within (ih bracketedAfter)

theorem levels (level : Nat) (journal : Journal) (runs : List (Run σ)) (bracketed : Bracketed level journal runs) :
    ∀ run ∈ runs, level ≤ run.level := by
  induction bracketed with
  | nothing level => simp
  | inner site time event isInner _ ih => exact ih
  | call site opened closed path filter instruction attempt outcome _ _ ihWithin ihLater =>
      intro run inside
      rcases List.mem_append.mp inside with nested | later
      · exact Nat.le_of_succ_le (ihWithin run nested)
      · exact ihLater run later
  | run run opened closed isJournal _ _ ihWithin ihLater =>
      intro other inside
      rcases List.mem_cons.mp inside with rfl | others
      · exact Nat.le_refl _
      · exact (List.mem_append.mp others).elim (ihWithin other) (ihLater other)

theorem within_limit (level : Nat) (journal : Journal) (runs : List (Run σ))
    (bracketed : Bracketed level journal runs) :
    ∀ run ∈ runs, run.depth ≤ run.manager.config.maxNestingDepth := by
  induction bracketed with
  | nothing level => simp
  | inner site time event isInner _ ih => exact ih
  | call site opened closed path filter instruction attempt outcome _ _ ihWithin ihLater =>
      intro run inside
      exact (List.mem_append.mp inside).elim (ihWithin run) (ihLater run)
  | run run opened closed isJournal _ _ ihWithin ihLater =>
      intro other inside
      rcases List.mem_cons.mp inside with rfl | others
      · refine Nat.le_of_not_lt fun beyond => ?_
        rw [Run.outcome, Manager.run_at_beyond _ _ _ beyond] at isJournal
        simp [Action.fail] at isJournal
      · exact (List.mem_append.mp others).elim (ihWithin other) (ihLater other)

theorem starts (level : Nat) (journal : Journal) (runs : List (Run σ)) (bracketed : Bracketed level journal runs)
    (name : String) (nested : Bool) :
    ∀ entry ∈ journal, entry.event = .counted (.pipelineStart name nested) →
      ∃ run ∈ runs, run.site = entry.site ∧ run.name = name ∧ nested = decide (run.depth > 0) := by
  induction bracketed with
  | nothing level => simp
  | inner site time event isInner _ ih =>
      intro entry inside starts
      rcases List.mem_cons.mp inside with rfl | later
      · dsimp only at starts
        simp [starts, Event.Inner] at isInner
      · exact ih entry later starts
  | call site opened closed path filter instruction attempt outcome _ _ ihWithin ihLater =>
      intro entry inside starts
      simp only [List.mem_cons, List.mem_append] at inside
      rcases inside with rfl | inside | rfl | later
      · simp at starts
      · obtain ⟨run, among, known⟩ := ihWithin entry inside starts
        exact ⟨run, List.mem_append_left _ among, known⟩
      · simp at starts
      · obtain ⟨run, among, known⟩ := ihLater entry later starts
        exact ⟨run, List.mem_append_right _ among, known⟩
  | run run opened closed isJournal _ _ ihWithin ihLater =>
      intro entry inside starts
      simp only [List.mem_cons, List.mem_append] at inside
      rcases inside with rfl | inside | rfl | later
      · simp only [Run.opening, Event.counted.injEq, Metric.pipelineStart.injEq] at starts
        exact ⟨run, List.mem_cons_self, rfl, starts.1, starts.2.symm⟩
      · obtain ⟨other, among, known⟩ := ihWithin entry inside starts
        exact ⟨other, List.mem_cons_of_mem _ (List.mem_append_left _ among), known⟩
      · exfalso
        rw [Run.closing] at starts
        cases ended : run.outcome.result <;> simp [ended, Pipeline.closing] at starts
      · obtain ⟨other, among, known⟩ := ihLater entry later starts
        exact ⟨other, List.mem_cons_of_mem _ (List.mem_append_right _ among), known⟩

theorem marked (level : Nat) (journal : Journal) (runs : List (Run σ)) (bracketed : Bracketed level journal runs) :
    ∀ run ∈ runs, ∃ time, run.opening time ∈ journal := by
  induction bracketed with
  | nothing level => simp
  | inner site time event isInner _ ih =>
      intro run among
      exact (ih run among).imp fun _ inside => List.mem_cons_of_mem _ inside
  | call site opened closed path filter instruction attempt outcome _ _ ihWithin ihLater =>
      intro run among
      rcases List.mem_append.mp among with nested | later
      · exact (ihWithin run nested).imp fun _ inside => by simp [inside]
      · exact (ihLater run later).imp fun _ inside => by simp [inside]
  | run run opened closed isJournal _ _ ihWithin ihLater =>
      intro other among
      rcases List.mem_cons.mp among with rfl | others
      · exact ⟨opened, List.mem_cons_self⟩
      · rcases List.mem_append.mp others with nested | later
        · exact (ihWithin other nested).imp fun _ inside => by simp [inside]
        · exact (ihLater other later).imp fun _ inside => by simp [inside]

end Bracketed

def Journal.Brackets {σ : Type} (kind : Run σ → Prop) (level : Nat) (journal : Journal) : Prop :=
  ∃ runs : List (Run σ), Bracketed level journal runs ∧ ∀ run ∈ runs, kind run

-- Brackets that all lie inside calls of resolvers.
def Journal.Nests {σ : Type} (kind : Run σ → Prop) (level : Nat) (journal : Journal) : Prop :=
  ∃ runs : List (Run σ), Bracketed level journal runs ∧ ∀ run ∈ runs, kind run ∧ level < run.level

namespace Journal

variable {σ : Type} (kind : Run σ → Prop)

theorem brackets_nothing (level : Nat) : Brackets kind level [] := ⟨[], .nothing level, by simp⟩

theorem brackets_append (level : Nat) (before after : Journal) (bracketsBefore : before.Brackets kind level)
    (bracketsAfter : after.Brackets kind level) : (before ++ after).Brackets kind level := by
  obtain ⟨first, bracketedBefore, knownBefore⟩ := bracketsBefore
  obtain ⟨second, bracketedAfter, knownAfter⟩ := bracketsAfter
  exact ⟨first ++ second, .append level before after first second bracketedBefore bracketedAfter,
    fun run inside => (List.mem_append.mp inside).elim (knownBefore run) (knownAfter run)⟩

theorem nests_nothing (level : Nat) : Nests kind level [] := ⟨[], .nothing level, by simp⟩

theorem nests_append (level : Nat) (before after : Journal) (nestsBefore : before.Nests kind level)
    (nestsAfter : after.Nests kind level) : (before ++ after).Nests kind level :=
  brackets_append (fun run => kind run ∧ level < run.level) level before after nestsBefore nestsAfter

theorem nests_brackets (level : Nat) (journal : Journal) (nests : journal.Nests kind level) :
    journal.Brackets kind level :=
  nests.imp fun _ known => ⟨known.1, fun run inside => (known.2 run inside).1⟩

theorem nests_inner (site : Site) (time : Nat) (event : Event) (rest : Journal) (isInner : event.Inner)
    (later : rest.Nests kind site.level) : Nests kind site.level (⟨site, time, event⟩ :: rest) := by
  obtain ⟨runs, bracketed, known⟩ := later
  exact ⟨runs, .inner site time event isInner bracketed, known⟩

theorem flat_nests (level : Nat) (journal : Journal)
    (flat : ∀ entry ∈ journal, entry.site.level = level ∧ entry.event.Inner) : journal.Nests kind level := by
  induction journal with
  | nil => exact nests_nothing kind level
  | cons entry rest ih =>
      obtain ⟨isLevel, isInner⟩ := flat entry List.mem_cons_self
      subst isLevel
      exact nests_inner kind entry.site entry.time entry.event rest isInner
        (ih fun other inside => flat other (List.mem_cons_of_mem _ inside))

end Journal

namespace Manager

variable {σ : Type} (manager : Manager σ) (kind : Run σ → Prop) (query : Query) (depth : Nat)

@[simp] theorem engine_at_site :
    (manager.engineAt query depth).site = ⟨depth, query.level + depth, query.deadline⟩ := rfl

theorem dealt_nests (evaluation : Evaluation σ) (isEngine : evaluation.engine = manager.engineAt query depth)
    (deeper : manager.Deeper (Journal.Brackets kind) query depth) (leaves : List PlacedLeaf) (journal : Journal)
    (dealt : evaluation.Dealt leaves journal) : journal.Nests kind (query.level + depth) := by
  have isLevel : evaluation.engine.site.level = query.level + depth := by rw [isEngine, engine_at_site]
  rw [← isLevel]
  induction dealt with
  | nothing => exact Journal.nests_nothing kind _
  | plain time event isPlain _ ih => exact Journal.nests_inner kind _ time event _ (event.plain_inner isPlain) ih
  | called opened closed path filter instruction attempt outcome served _ ih =>
      rw [isEngine] at served
      obtain ⟨nested, within, knownWithin⟩ := manager.served_kept (Journal.Brackets kind)
        (Journal.brackets_nothing kind) (Journal.brackets_append kind) query depth deeper _ served
      rw [← isLevel] at within
      obtain ⟨runs, later, knownLater⟩ := ih
      refine ⟨nested ++ runs, .call _ opened closed path filter instruction attempt outcome within later, ?_⟩
      intro run inside
      rcases List.mem_append.mp inside with isNested | isLater
      · exact ⟨knownWithin run isNested, within.levels _ _ _ run isNested⟩
      · exact knownLater run isLater
  | resolved counted traced placed rows attempts _ ih =>
      exact Journal.nests_inner kind _ counted _ _ trivial (Journal.nests_inner kind _ traced _ _ trivial ih)
  | skipped counted traced placed tolerated _ ih =>
      exact Journal.nests_inner kind _ counted _ _ trivial (Journal.nests_inner kind _ traced _ _ trivial ih)

theorem quiet_nests (journal : Journal) (quiet : (manager.engineAt query depth).Quiet journal) :
    journal.Nests kind (query.level + depth) :=
  Journal.flat_nests kind _ journal fun entry inside =>
    ⟨by rw [(quiet entry inside).1, engine_at_site], entry.event.plain_inner (quiet entry inside).2⟩

theorem executed_nests (pipeline : Pipeline σ) (plan : Plan)
    (deeper : manager.Deeper (Journal.Brackets kind) query depth) (result : Except PipelineError IdentitySet)
    (journal : Journal) (executed : pipeline.Executed (manager.engineAt query depth) plan result journal) :
    journal.Nests kind (query.level + depth) := by
  have opens (leaves opened started : Nat) : ((Evaluation.ofPlan (manager.engineAt query depth)
      pipeline.registry plan).opening leaves opened started).Nests kind (query.level + depth) :=
    Journal.flat_nests kind _ _ (by simp [Evaluation.opening, Evaluation.ofPlan, Event.Inner])
  cases executed with
  | unfiltered isUnfiltered counted traced =>
      exact Journal.flat_nests kind _ _ (by simp [Event.Inner])
  | merged root planned opened started counted traced leaves inside rows dealt all =>
      have nests := manager.dealt_nests kind query depth _ rfl deeper leaves inside dealt
      exact Journal.nests_append _ _ _ _ (opens _ _ _) (Journal.nests_append _ _ _ _ nests
        (Journal.flat_nests kind _ _ (by simp [Event.Inner])))
  | failed root planned opened started traced leaves inside error ofRun failureClass origin dealt =>
      have nests := manager.dealt_nests kind query depth _ rfl deeper leaves inside dealt
      exact Journal.nests_append _ _ _ _ (opens _ _ _) (Journal.nests_append _ _ _ _ nests
        (Journal.flat_nests kind _ _ (by simp [Event.Inner])))

theorem run_at_bracket (within : depth ≤ manager.config.maxNestingDepth) (name question : String)
    (pipeline : Pipeline σ) (found : manager.find name = .ok pipeline) (world : World σ)
    (deeper : manager.Deeper (Journal.Brackets kind) query depth) :
    ∃ nested, Bracketed (query.level + depth) (manager.runAt query depth name question world).journal
        (⟨manager, query, depth, name, question, world⟩ :: nested) ∧
      ∀ run ∈ nested, kind run ∧ query.level + depth < run.level := by
  let run : Run σ := ⟨manager, query, depth, name, question, world⟩
  have isName : run.name = pipeline.name := by
    simp only [Run.name, run, found]
  have outcome : run.outcome = pipeline.run (manager.engineAt query depth) question world :=
    manager.run_at_found query depth within name question pipeline found world
  -- The marks of the bracket are those that the run itself writes.
  have bracket (inside : Journal) (opened closed : Nat) (nests : inside.Nests kind (query.level + depth))
      (isJournal : run.outcome.journal = run.opening opened :: (inside ++ [run.closing closed])) :
      ∃ nested, Bracketed run.level run.outcome.journal (run :: nested) ∧
        ∀ other ∈ nested, kind other ∧ run.level < other.level := by
    obtain ⟨nested, bracketed, known⟩ := nests
    refine ⟨nested ++ [], ?_, fun other inside => known other (by simpa using inside)⟩
    rw [isJournal]
    exact .run run opened closed isJournal bracketed (.nothing run.level)
  have ran := pipeline.run_writes (manager.engineAt query depth) question world
  rw [← outcome] at ran
  generalize isResult : run.outcome.result = result at ran
  generalize isJournal : run.outcome.journal = journal at ran
  cases ran with
  | unplanned opened closed planning error ofPlanning quiet =>
      refine bracket planning opened closed (manager.quiet_nests kind query depth planning quiet) ?_
      rw [isJournal, Run.opening, Run.closing, isName, isResult]
      rfl
  | executed opened closed planning plan later quiet checked =>
      have executed := pipeline.execute_writes (manager.engineAt query depth) plan later
      refine bracket _ opened closed (Journal.nests_append kind _ _ _
        (manager.quiet_nests kind query depth planning quiet)
        (manager.executed_nests kind query depth pipeline plan deeper _ _ executed)) ?_
      rw [isJournal, Run.opening, Run.closing, isName, isResult]
      rfl

theorem run_at_kind (within : depth ≤ manager.config.maxNestingDepth) (name question : String)
    (pipeline : Pipeline σ) (found : manager.find name = .ok pipeline) (world : World σ)
    (isKind : kind ⟨manager, query, depth, name, question, world⟩)
    (deeper : manager.Deeper (Journal.Brackets kind) query depth) :
    (manager.runAt query depth name question world).journal.Brackets kind (query.level + depth) := by
  obtain ⟨nested, bracketed, known⟩ :=
    manager.run_at_bracket kind query depth within name question pipeline found world deeper
  refine ⟨_, bracketed, fun run inside => ?_⟩
  rcases List.mem_cons.mp inside with rfl | isNested
  · exact isKind
  · exact (known run isNested).1

def Owns (run : Run σ) : Prop := run.manager = manager

theorem deeper_brackets : manager.Deeper (Journal.Brackets manager.Owns) query depth := by
  refine manager.deeper_kept _ (Journal.brackets_nothing _) ?_ ?_ ?_ query depth
  · intro level deadline time
    exact Journal.nests_brackets _ _ _ (Journal.flat_nests _ _ _ (by simp [Event.Inner]))
  · exact fun query depth name question pipeline world within found deeper =>
      manager.run_at_kind _ query depth within name question pipeline found world rfl deeper
  · exact fun query name pipeline plan world _ deeper => Journal.nests_brackets _ _ _
      (manager.executed_nests _ query 0 pipeline plan deeper _ _ (pipeline.execute_writes _ plan world))

theorem run_at_brackets (name question : String) (world : World σ) :
    (manager.runAt query depth name question world).journal.Brackets manager.Owns (query.level + depth) :=
  manager.run_at_kept _ (Journal.brackets_nothing _ _) query depth (fun name question pipeline world within found =>
    manager.run_at_kind _ query depth within name question pipeline found world rfl
      (manager.deeper_brackets query depth)) name question world

theorem execute_at_nests (pipeline : Pipeline σ) (plan : Plan) (world : World σ) :
    (pipeline.execute (manager.engineAt query 0) plan world).journal.Nests manager.Owns query.level :=
  manager.executed_nests _ query 0 pipeline plan (manager.deeper_brackets query 0) _ _
    (pipeline.execute_writes _ plan world)

theorem execute_nests (name : String) (plan : Plan) (world : World σ) :
    (manager.execute name plan world).journal.Nests manager.Owns 0 :=
  manager.begin_execute_kept (Journal.Nests manager.Owns 0) manager.stack 0 (Journal.nests_nothing _ 0)
    (fun deadline _ pipeline plan world _ => manager.execute_at_nests (manager.outermost deadline) pipeline plan world)
    name plan world

theorem step_brackets (step : Step σ) (world : World σ) :
    (step.journal manager world).Brackets manager.Owns 0 := by
  refine manager.step_kept (Journal.Brackets manager.Owns 0) (Journal.brackets_nothing _ 0) ?_ ?_ step world
  · exact fun deadline => manager.run_at_brackets (manager.outermost deadline) 0
  · exact fun deadline _ pipeline plan world _ => Journal.nests_brackets _ _ _
      (manager.execute_at_nests (manager.outermost deadline) pipeline plan world)

end Manager

end FilterPlan
