import FilterPlan.Proofs.Levels
import FilterPlan.Proofs.Likeness

set_option autoImplicit false

namespace FilterPlan

namespace Engine

variable {σ : Type} (engine : Engine σ)

-- What is not told at an engine's own site is reached in a call of a resolver that is told there.
def Originates (journal : Journal) : Prop :=
  ∀ entry ∈ journal, entry.site = engine.site ∨
    (∃ opener ∈ journal, opener.site = engine.site ∧ opener.event.call?.isSome) ∧
      ∃ part, engine.Served part ∧ entry ∈ part

theorem originates_own (journal : Journal) (own : ∀ entry ∈ journal, entry.site = engine.site) :
    engine.Originates journal :=
  fun entry inside => Or.inl (own entry inside)

theorem originates_append (before after : Journal) (first : engine.Originates before)
    (second : engine.Originates after) : engine.Originates (before ++ after) := by
  intro entry inside
  rcases List.mem_append.mp inside with early | late
  · refine (first entry early).imp_right fun known => ⟨?_, known.2⟩
    exact known.1.imp fun opener opens => ⟨List.mem_append_left _ opens.1, opens.2⟩
  · refine (second entry late).imp_right fun known => ⟨?_, known.2⟩
    exact known.1.imp fun opener opens => ⟨List.mem_append_right _ opens.1, opens.2⟩

theorem originates_entry (time : Nat) (event : Event) (rest : Journal) (later : engine.Originates rest) :
    engine.Originates (⟨engine.site, time, event⟩ :: rest) :=
  engine.originates_append [_] rest (engine.originates_own _ (by simp)) later

theorem quiet_originates (journal : Journal) (quiet : engine.Quiet journal) : engine.Originates journal :=
  engine.originates_own journal fun entry inside => (quiet entry inside).1

end Engine

namespace Evaluation

variable {σ : Type} (evaluation : Evaluation σ)

theorem dealt_originates (leaves : List PlacedLeaf) (journal : Journal) (dealt : evaluation.Dealt leaves journal) :
    evaluation.engine.Originates journal := by
  induction dealt with
  | nothing => exact evaluation.engine.originates_own [] (by simp)
  | plain time event _ _ ih => exact evaluation.engine.originates_entry time event _ ih
  | @called _ inside rest opened closed path filter instruction attempt outcome served _ ih =>
      have later := evaluation.engine.originates_entry closed (.resolverReturned path outcome) rest ih
      have call : evaluation.engine.Originates
          (⟨evaluation.engine.site, opened, .resolverCalled path filter instruction attempt⟩ :: inside) := by
        intro entry among
        rcases List.mem_cons.mp among with rfl | within
        · exact Or.inl rfl
        · exact Or.inr ⟨⟨_, List.mem_cons_self, rfl, rfl⟩, inside, served, within⟩
      exact evaluation.engine.originates_append _ _ call later
  | resolved counted traced placed rows attempts _ ih =>
      exact evaluation.engine.originates_entry _ _ _ (evaluation.engine.originates_entry _ _ _ ih)
  | skipped counted traced placed _ _ ih =>
      exact evaluation.engine.originates_entry _ _ _ (evaluation.engine.originates_entry _ _ _ ih)

theorem filled_originates {α : Type} (leaves : List PlacedLeaf) (result : Except EvaluateError α) (journal : Journal)
    (filled : evaluation.Filled leaves result journal) : evaluation.engine.Originates journal := by
  obtain ⟨counted, traced, dealt, inside, rfl, isDealt, _⟩ := filled
  have opens := evaluation.engine.originates_own (evaluation.opening leaves.length counted traced) (by simp [opening])
  exact evaluation.engine.originates_append _ _ opens (evaluation.dealt_originates dealt inside isDealt)

theorem evaluate_originates (world : World σ) : evaluation.engine.Originates (evaluation.evaluate world).journal := by
  cases planned : evaluation.plan.root with
  | none =>
      have isJournal : (evaluation.evaluate world).journal =
          [⟨evaluation.engine.site, world.now, .counted (.planEvaluated 0 true)⟩] := by
        rw [evaluate, planned]
        rfl
      rw [isJournal]
      exact evaluation.engine.originates_own _ (by simp)
  | some root =>
      rw [evaluation.evaluate_root root planned]
      have written := evaluation.evaluate_node_writes root [] world
      cases ended : (evaluation.evaluateNode root [] world).result with
      | ok store =>
          rw [ended] at written
          exact evaluation.filled_originates _ _ _ written
      | error error =>
          rw [ended] at written
          obtain ⟨time, before, filled, isJournal⟩ := written
          rw [isJournal]
          exact evaluation.engine.originates_append _ _ (evaluation.filled_originates _ _ _ filled)
            (evaluation.engine.originates_own _ (by simp))

end Evaluation

namespace Pipeline

variable {σ : Type} (pipeline : Pipeline σ) (engine : Engine σ)

theorem execute_originates (plan : Plan) (world : World σ) :
    engine.Originates (pipeline.execute engine plan world).journal := by
  have opens (leaves opened started : Nat) :
      engine.Originates ((Evaluation.ofPlan engine pipeline.registry plan).opening leaves opened started) :=
    engine.originates_own _ (by simp [Evaluation.opening, Evaluation.ofPlan])
  have executed := pipeline.execute_writes engine plan world
  generalize (pipeline.execute engine plan world).result = result at executed
  generalize (pipeline.execute engine plan world).journal = journal at executed ⊢
  cases executed with
  | unfiltered isUnfiltered counted traced => exact engine.originates_own _ (by simp)
  | merged root planned opened started counted traced leaves inside rows dealt all =>
      have deals := Evaluation.dealt_originates _ leaves inside dealt
      exact engine.originates_append _ _ (opens _ _ _)
        (engine.originates_append _ _ deals (engine.originates_own _ (by simp)))
  | failed root planned opened started traced leaves inside error ofRun failureClass origin dealt =>
      have deals := Evaluation.dealt_originates _ leaves inside dealt
      exact engine.originates_append _ _ (opens _ _ _)
        (engine.originates_append _ _ deals (engine.originates_own _ (by simp)))

theorem run_originates (question : String) (world : World σ) :
    engine.Originates (pipeline.run engine question world).journal := by
  have ran := pipeline.run_writes engine question world
  generalize (pipeline.run engine question world).result = result at ran
  generalize (pipeline.run engine question world).journal = journal at ran ⊢
  cases ran with
  | unplanned opened closed planning error ofPlanning quiet =>
      exact engine.originates_entry _ _ _ (engine.originates_append _ _ (engine.quiet_originates planning quiet)
        (engine.originates_own _ (by simp)))
  | executed opened closed planning plan later quiet checked =>
      exact engine.originates_entry _ _ _ (engine.originates_append _ _
        (engine.originates_append _ _ (engine.quiet_originates planning quiet)
          (pipeline.execute_originates engine plan later))
        (engine.originates_own _ (by simp)))

end Pipeline

-- What is told in a query itself: there, only nested runs open calls of resolvers.
def Query.Holds (query : Query) (entry : Entry) : Prop :=
  entry.site.level = query.level + entry.site.depth ∧ entry.site.deadline = query.deadline

namespace Manager

variable {σ : Type} (manager : Manager σ) (query : Query)

def Begins (entry : Entry) : Prop :=
  ∃ level, query.level < level ∧ ∃ call world, entry ∈ (manager.meetWithin query.stack level call world).journal

def Parts (journal : Journal) : Prop := ∀ entry ∈ journal, query.Holds entry ∨ manager.Begins query entry

theorem parts_append (before after : Journal) (first : manager.Parts query before) (second : manager.Parts query after) :
    manager.Parts query (before ++ after) :=
  fun entry inside => (List.mem_append.mp inside).elim (first entry) (second entry)

theorem call_parts (level : Nat) (deeper : query.level < level) (call : Call) (world : World σ) :
    manager.Parts query (manager.meetWithin query.stack level call world).journal :=
  fun _ inside => Or.inr ⟨level, deeper, call, world, inside⟩

theorem served_parts (depth : Nat)
    (asked : ∀ name question world, manager.Parts query (manager.runAt query (depth + 1) name question world).journal)
    (journal : Journal) (served : (manager.engineAt query depth).Served journal) : manager.Parts query journal :=
  manager.served_kept (fun _ => manager.Parts query) (fun _ => by simp [Parts]) (fun _ => manager.parts_append query)
    query depth ⟨asked, manager.call_parts query _ (by omega)⟩ journal served

theorem originates_parts (depth : Nat)
    (asked : ∀ name question world, manager.Parts query (manager.runAt query (depth + 1) name question world).journal)
    (journal : Journal) (originates : (manager.engineAt query depth).Originates journal) :
    manager.Parts query journal := by
  intro entry inside
  rcases originates entry inside with own | ⟨_, part, served, among⟩
  · rw [engine_at_site] at own
    exact Or.inl ⟨by rw [own], by rw [own]⟩
  · exact manager.served_parts query depth asked part served entry among

theorem run_at_parts (depth : Nat) (name question : String) (world : World σ) :
    manager.Parts query (manager.runAt query depth name question world).journal := by
  generalize isRoom : manager.config.maxNestingDepth + 1 - depth = room
  induction room generalizing depth name question world with
  | zero =>
      obtain ⟨error, isRefused⟩ := manager.run_at_refused query depth name question (Or.inl (by omega)) world
      rw [isRefused]
      simp [Parts]
  | succ room ih =>
      apply manager.run_at_kept (manager.Parts query) (by simp [Parts]) query depth
      intro name question pipeline world within found
      rw [manager.run_at_found query depth within name question pipeline found]
      exact manager.originates_parts query depth (fun name question world => ih (depth + 1) name question world (by omega))
        _ (pipeline.run_originates _ question world)

theorem engine_at_parts (depth : Nat) (journal : Journal)
    (originates : (manager.engineAt query depth).Originates journal) : manager.Parts query journal :=
  manager.originates_parts query depth (manager.run_at_parts query (depth + 1)) journal originates

theorem meet_within_deeper (stack level : Nat) (call : Call) (world : World σ) :
    ∀ entry ∈ (manager.meetWithin stack level call world).journal, level + entry.site.depth ≤ entry.site.level := by
  induction stack generalizing level call world with
  | zero => simp [meet_within_none]
  | succ stack ih =>
      have parted (deadline : Deadline) (journal : Journal) (parts : manager.Parts ⟨deadline, level, stack⟩ journal) :
          ∀ entry ∈ journal, level + entry.site.depth ≤ entry.site.level := by
        intro entry inside
        rcases parts entry inside with holds | ⟨inner, deeper, call, world, among⟩
        · exact Nat.le_of_eq holds.1.symm
        · have below := ih inner call world entry among
          dsimp only at deeper
          omega
      exact manager.meet_kept (fun journal => ∀ entry ∈ journal, level + entry.site.depth ≤ entry.site.level) stack level
        (by simp)
        (fun deadline name question world => parted deadline _
          (manager.run_at_parts ⟨deadline, level, stack⟩ 0 name question world))
        (fun deadline name pipeline plan world found => parted deadline _
          (manager.engine_at_parts ⟨deadline, level, stack⟩ 0 _ (pipeline.execute_originates _ plan world))) call world

theorem parts_deadline (journal : Journal) (parts : manager.Parts query journal) (entry : Entry)
    (inside : entry ∈ journal) (isLevel : entry.site.level = query.level + entry.site.depth) :
    entry.site.deadline = query.deadline := by
  rcases parts entry inside with holds | ⟨level, deeper, call, world, among⟩
  · exact holds.2
  · have below := manager.meet_within_deeper query.stack level call world entry among
    omega

theorem stackless_deadline (empty : query.stack = 0) (journal : Journal) (parts : manager.Parts query journal)
    (entry : Entry) (inside : entry ∈ journal) (calls : entry.event.call?.isSome) :
    entry.site.deadline = query.deadline := by
  rcases parts entry inside with holds | ⟨level, deeper, call, world, among⟩
  · exact holds.2
  · rw [empty, meet_within_none, List.mem_singleton] at among
    subst among
    cases calls

end Manager

namespace Engine

variable {σ : Type} (engine : Engine σ)

def Spans (entry : Entry) : Prop := entry.site.level + engine.depth = engine.level + entry.site.depth

theorem used_spans (used : engine.Used) (journal : Journal) (originates : engine.Originates journal) :
    ∀ entry ∈ journal, engine.Spans entry → entry.site.deadline = engine.deadline := by
  intro entry inside spans
  cases used with
  | alone config deadline =>
      rcases originates entry inside with own | ⟨_, part, served, among⟩
      · rw [own]
        rfl
      · rw [alone_served config deadline part served] at among
        cases among
  | managed manager query depth =>
      apply manager.parts_deadline query journal (manager.engine_at_parts query depth journal originates) entry inside
      change entry.site.level + depth = query.level + depth + entry.site.depth at spans
      omega

end Engine

-- Outside a manager, and where resolvers only ask, no query is begun inside another one.
def Evaluation.AsksOnly {σ : Type} (evaluation : Evaluation σ) : Prop :=
  evaluation.engine.scope = none ∨ ∃ (manager : Manager σ) (query : Query) (depth : Nat),
    manager.Asks ∧ evaluation.registry.Asks ∧ evaluation.engine = manager.engineAt query depth

end FilterPlan
