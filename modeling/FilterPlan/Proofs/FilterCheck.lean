import FilterPlan.Proofs.Placement
import FilterPlan.Proofs.Queries
import FilterPlan.Proofs.Unskipped

set_option autoImplicit false

namespace FilterPlan

namespace Journal

def skips (journal : Journal) : List Event := (journal.map Entry.event).filter Event.Skips

@[simp] theorem skips_append (before after : Journal) : skips (before ++ after) = skips before ++ skips after := by
  simp [skips]

@[simp] theorem skips_cons (entry : Entry) (rest : Journal) :
    skips (entry :: rest) = if entry.event.Skips then entry.event :: skips rest else skips rest := by
  simp [skips, List.filter_cons]

theorem skips_nothing (journal : Journal) : journal.skips = [] ↔ journal.Unskipped := by
  simp [skips, Unskipped]

def ownSkips (level : Nat) (journal : Journal) : List Event := (journal.own level).filter Event.Skips

@[simp] theorem own_skips_append (level : Nat) (before after : Journal) :
    ownSkips level (before ++ after) = ownSkips level before ++ ownSkips level after := by
  simp [ownSkips]

@[simp] theorem own_skips_cons (level : Nat) (entry : Entry) (rest : Journal) :
    ownSkips level (entry :: rest) =
      if entry.site.level = level ∧ entry.event.Skips then entry.event :: ownSkips level rest
      else ownSkips level rest := by
  by_cases here : entry.site.level = level <;> simp [ownSkips, here, List.filter_cons]

theorem own_skips_deeper (level : Nat) (journal : Journal) (deeper : ∀ entry ∈ journal, level < entry.site.level) :
    ownSkips level journal = [] := by
  rw [ownSkips, own_deeper level journal deeper, List.filter_nil]

theorem own_skips_nothing (level : Nat) (journal : Journal) :
    journal.ownSkips level = [] ↔ ∀ event ∈ journal.own level, ¬ event.Skips := by
  simp [ownSkips]

theorem own_unskipped (level : Nat) (journal : Journal) (unskipped : journal.Unskipped) :
    journal.ownSkips level = [] := by
  rw [own_skips_nothing]
  intro event inside
  obtain ⟨entry, among, rfl⟩ := List.mem_map.mp inside
  exact unskipped entry (List.mem_of_mem_filter among)

end Journal

namespace Engine

variable {σ : Type}

def Deepens (engine : Engine σ) : Prop :=
  ∀ journal, engine.Served journal → ∀ entry ∈ journal, engine.level < entry.site.level

def Unskipping (engine : Engine σ) : Prop := ∀ journal, engine.Served journal → journal.Unskipped

theorem alone_unskipping (config : Config) (deadline : Deadline) :
    Unskipping (σ := σ) ⟨config, deadline, 0, none⟩ := by
  intro journal served
  rw [alone_served config deadline journal served]
  exact Journal.unskipped_nil

-- The policy of an engine is no part of what its resolvers reach.
theorem missing_served (engine : Engine σ) (policy : MissingFilterPolicy) (journal : Journal)
    (served : (engine.withMissing policy).Served journal) : engine.Served journal := by
  generalize isOther : engine.withMissing policy = other at served
  have sameScope : engine.scope = other.scope := isOther ▸ rfl
  induction served with
  | nothing => exact .nothing
  | asked scope inScope pipeline question world rest _ ih =>
      exact .asked scope (sameScope.trans inScope) pipeline question world rest ih
  | entered scope inScope call world rest _ ih =>
      exact .entered scope (sameScope.trans inScope) call world rest ih

end Engine

theorem Manager.stackless_unskipping {σ : Type} (manager : Manager σ) (asks : manager.Asks) (query : Query) (depth : Nat) :
    (manager.engineAt { query with stack := 0 } depth).Unskipping := by
  refine fun journal served => manager.served_unskipped _ depth ⟨?_, ?_⟩ journal served
  · exact manager.run_at_unskipped asks { query with stack := 0 } (depth + 1)
  · intro call world
    rw [meet_within_none]
    simp [Event.Skips]

namespace Registry

variable {σ : Type}

theorem contains_names (registry : Registry σ) (name : String) :
    registry.contains name = decide (name ∈ registry.names) := by
  rw [contains, names, Bool.eq_iff_iff, Catalog.contains_iff, decide_eq_true_iff]

end Registry

theorem Node.find_placed (root : Node) (wanted : String → Bool) (found : PlacedLeaf)
    (isFound : (root.placedLeaves []).find? (fun placed => wanted placed.leaf.filter) = some found) :
    ∃ before position after, root.positions = before ++ position :: after ∧
      (∀ earlier ∈ before, wanted earlier.leaf.filter = false) ∧ wanted position.leaf.filter = true ∧
      found = ⟨.first root.kind :: position.path, position.leaf⟩ := by
  rw [placed_leaves_positions, List.find?_map, Option.map_eq_some_iff] at isFound
  obtain ⟨position, first, rfl⟩ := isFound
  obtain ⟨isWanted, before, after, listed, unwanted⟩ := List.find?_eq_some_iff_append.mp first
  exact ⟨before, position, after, listed, by simpa [PlacedLeaf.below] using unwanted, isWanted, rfl⟩

namespace Evaluation

variable {σ : Type}

theorem dealt_own_unskipped (evaluation : Evaluation σ) (deepens : evaluation.engine.Deepens)
    (leaves : List PlacedLeaf) (journal : Journal) (dealt : (evaluation.withMissing .reject).Dealt leaves journal) :
    journal.ownSkips evaluation.engine.level = [] := by
  have isLevel : (evaluation.withMissing .reject).engine.level = evaluation.engine.level := rfl
  rw [← isLevel]
  induction dealt with
  | nothing => rfl
  | plain time event isPlain _ ih => simpa [event.plain_unskipped isPlain] using ih
  | called opened closed path filter instruction attempt outcome served _ ih =>
      have deeper := deepens _ (evaluation.engine.missing_served .reject _ served)
      rw [← isLevel] at deeper
      simpa [Event.Skips, Journal.own_skips_deeper _ _ deeper] using ih
  | resolved counted traced placed rows attempts _ ih => simpa [Event.Skips] using ih
  | skipped counted traced placed tolerated _ ih => cases tolerated

theorem resolve_all_unskipped (evaluation : Evaluation σ) (deepens : evaluation.engine.Deepens)
    (leaves : List PlacedLeaf) : (evaluation.resolveAll leaves).Writes fun _ journal =>
      journal.ownSkips evaluation.engine.level = [] ∧ (evaluation.engine.Unskipping → journal.Unskipped) := by
  have unskipped (some : List PlacedLeaf) (journal : Journal)
      (dealt : (evaluation.withMissing .reject).Dealt some journal) :
      journal.ownSkips evaluation.engine.level = [] ∧ (evaluation.engine.Unskipping → journal.Unskipped) :=
    ⟨evaluation.dealt_own_unskipped deepens some journal dealt, fun unskipping =>
      (evaluation.withMissing .reject).dealt_unskipped rfl (fun inside served => unskipping inside
        (evaluation.engine.missing_served .reject inside served)) some journal dealt⟩
  rw [← evaluation.resolve_all_same .reject]
  refine Action.writes_weaken ((evaluation.withMissing .reject).resolve_all_writes leaves)
    fun result journal answers => ?_
  cases result with
  | ok results => exact unskipped leaves journal answers
  | error error =>
      obtain ⟨some, dealt⟩ := answers
      exact unskipped some journal dealt

theorem fault_unskipped (evaluation : Evaluation σ) (error : EvaluateError) :
    (evaluation.fault error).Writes fun result journal => result = .ok () ∧ journal.Unskipped := by
  intro world
  rw [fault_outcome, faultMarks]
  refine ⟨rfl, ?_⟩
  by_cases late : error.isTimeout
  · simp [late, Event.Skips]
  · simp [late, Event.Skips]

def skipMarks (evaluation : Evaluation σ) (placed : PlacedLeaf) : List Event :=
  [.counted .leafSkipped, .traced evaluation.fingerprint (.leafSkipped placed.path placed.leaf.filter)]

def unknown (evaluation : Evaluation σ) (placed : PlacedLeaf) : Bool := !evaluation.registry.contains placed.leaf.filter

-- What is told of the leaves that are skipped, at the evaluation's own level and in all.
def TellsSkips (evaluation : Evaluation σ) (leaves : List PlacedLeaf) (journal : Journal) : Prop :=
  journal.ownSkips evaluation.engine.level = (leaves.filter evaluation.unknown).flatMap evaluation.skipMarks ∧
    ∃ inside, journal.skips = (leaves.filter evaluation.unknown).flatMap evaluation.skipMarks ++ inside ∧
      (evaluation.engine.Unskipping → inside = [])

theorem tells_skips_more (evaluation : Evaluation σ) (leaves : List PlacedLeaf) (journal rest : Journal)
    (tells : evaluation.TellsSkips leaves journal) (quiet : rest.ownSkips evaluation.engine.level = [])
    (unskipped : evaluation.engine.Unskipping → rest.Unskipped) : evaluation.TellsSkips leaves (journal ++ rest) := by
  obtain ⟨own, inside, all, none⟩ := tells
  refine ⟨by rw [Journal.own_skips_append, own, quiet, List.append_nil], inside ++ rest.skips, ?_, ?_⟩
  · rw [Journal.skips_append, all, List.append_assoc]
  · exact fun unskipping => by rw [none unskipping, (Journal.skips_nothing rest).mpr (unskipped unskipping)]; rfl

theorem skip_unknown_skips {ε : Type} (evaluation : Evaluation σ) (leaves : List PlacedLeaf) :
    (evaluation.skipUnknown leaves : Action σ ε (List PlacedLeaf)).Writes fun _ journal =>
      journal.ownSkips evaluation.engine.level = (leaves.filter evaluation.unknown).flatMap evaluation.skipMarks ∧
        journal.skips = (leaves.filter evaluation.unknown).flatMap evaluation.skipMarks := by
  induction leaves with
  | nil => exact Action.done_writes ⟨rfl, rfl⟩
  | cons placed rest ih =>
      rw [skipUnknown]
      by_cases known : evaluation.registry.contains placed.leaf.filter
      · have kept : ¬ evaluation.unknown placed := by simp [unknown, known]
        rw [if_pos known, List.filter_cons_of_neg kept]
        refine Action.bind_writes (Action.writes_weaken ih fun result journal skipped => ?_)
        cases result with
        | error error => exact skipped
        | ok others => exact Action.pure_writes (by rwa [List.append_nil])
      · have missing : evaluation.unknown placed := by simp [unknown, known]
        rw [if_neg known, List.filter_cons_of_pos missing]
        refine Action.count_then_writes fun counted => Action.record_then_writes fun traced => ?_
        refine Action.writes_weaken ih fun result journal skipped => ?_
        rw [List.flatMap_cons]
        refine ⟨?_, ?_⟩
        · rw [← skipped.1]
          simp [skipMarks, Event.Skips]
        · rw [← skipped.2]
          simp [skipMarks, Event.Skips]

theorem skipping_skips (evaluation : Evaluation σ) (deepens : evaluation.engine.Deepens)
    (tolerates : evaluation.engine.config.missingFilter = .skip) (node : Node) (base : Path) :
    (evaluation.evaluateNode node base).Writes fun _ journal =>
      evaluation.TellsSkips (node.placedLeaves base) journal := by
  have stores : (evaluation.storeLeaves (node.placedLeaves base)).Writes fun _ journal =>
      evaluation.TellsSkips (node.placedLeaves base) journal := by
    rw [storeLeaves, choose, tolerates]
    refine Action.count_then_writes fun counted => Action.record_then_writes fun traced => ?_
    refine Action.bind_writes (Action.writes_weaken (evaluation.skip_unknown_skips _) fun result journal skipped => ?_)
    have told : evaluation.TellsSkips (node.placedLeaves base)
        (⟨evaluation.engine.site, counted, .counted (.planEvaluated (node.placedLeaves base).length false)⟩ ::
          ⟨evaluation.engine.site, traced, .traced evaluation.fingerprint
            (.planStart (node.placedLeaves base).length evaluation.engine.depth)⟩ :: journal) := by
      refine ⟨?_, [], ?_, fun _ => rfl⟩
      · rw [← skipped.1]
        simp [Event.Skips]
      · rw [List.append_nil, ← skipped.2]
        simp [Event.Skips]
    cases result with
    | error error => exact told
    | ok chosen =>
        refine Action.bind_writes (Action.writes_weaken (evaluation.resolve_all_unskipped deepens chosen)
          fun result later unskipped => ?_)
        have more := evaluation.tells_skips_more _ _ later told unskipped.1 unskipped.2
        cases result with
        | error error => exact more
        | ok results => exact Action.of_except_writes (by rw [List.append_nil]; exact more)
  rw [evaluateNode]
  refine Action.on_failure_writes (Action.writes_weaken stores fun result journal skipped => ?_)
  cases result with
  | ok store => exact skipped
  | error error =>
      refine Action.writes_weaken (evaluation.fault_unskipped error) fun response rest quiet => ⟨quiet.1, ?_⟩
      exact evaluation.tells_skips_more _ _ rest skipped (Journal.own_unskipped _ _ quiet.2) fun _ => quiet.2

theorem first_skipped (evaluation : Evaluation σ) (leaves : List PlacedLeaf) (missing : PlacedLeaf)
    (found : leaves.find? evaluation.unknown = some missing) :
    ∃ others, (leaves.filter evaluation.unknown).flatMap evaluation.skipMarks =
      evaluation.skipMarks missing ++ others := by
  obtain ⟨isUnknown, before, after, rfl, known⟩ := List.find?_eq_some_iff_append.mp found
  have none : before.filter evaluation.unknown = [] :=
    List.filter_eq_nil_iff.mpr fun placed inside => by simpa using known placed inside
  refine ⟨(after.filter evaluation.unknown).flatMap evaluation.skipMarks, ?_⟩
  rw [List.filter_append, none, List.nil_append, List.filter_cons_of_pos isUnknown, List.flatMap_cons]

theorem rejecting_outcome (evaluation : Evaluation σ) (rejects : evaluation.engine.config.missingFilter = .reject)
    (node : Node) (base : Path) (missing : PlacedLeaf)
    (found : (node.placedLeaves base).find? evaluation.unknown = some missing) (world : World σ) :
    evaluation.evaluateNode node base world =
      ⟨.error (.registry (.unknownFilter missing.leaf.filter)), world,
        evaluation.opening (node.placedLeaves base).length world.now world.now ++
          [⟨evaluation.engine.site, world.now, .traced evaluation.fingerprint
            (.error (EvaluateError.registry (.unknownFilter missing.leaf.filter)).failureClass .evaluate)⟩]⟩ := by
  have refused : evaluation.choose (node.placedLeaves base) =
      .fail (.registry (.unknownFilter missing.leaf.filter)) := by
    have isFound : ((node.placedLeaves base).find? fun placed => !evaluation.registry.contains placed.leaf.filter) =
        some missing := found
    rw [choose, rejects]
    dsimp only
    rw [isFound]
  rw [evaluateNode, storeLeaves, refused]
  rfl

theorem check_names (evaluation : Evaluation σ) (root : Node) (planned : evaluation.plan.root = some root) :
    (evaluation.plan.checkFilters fun name => name ∈ evaluation.registry.names) =
      match (root.placedLeaves []).find? evaluation.unknown with
      | none => .ok ()
      | some missing => .error (.unknownFilter missing.leaf.filter missing.path) := by
  have named : (fun name => decide (name ∈ evaluation.registry.names)) = evaluation.registry.contains :=
    funext fun name => (evaluation.registry.contains_names name).symm
  rw [named]
  exact evaluation.plan.check_filters_find root planned evaluation.registry.contains

theorem check_passes (evaluation : Evaluation σ) (root : Node) (planned : evaluation.plan.root = some root) :
    (evaluation.plan.checkFilters fun name => name ∈ evaluation.registry.names) = .ok () ↔
      (root.placedLeaves []).find? evaluation.unknown = none := by
  rw [evaluation.check_names root planned]
  cases (root.placedLeaves []).find? evaluation.unknown with
  | none => simp
  | some missing => simp

theorem evaluate_refused (evaluation : Evaluation σ) (root : Node) (planned : evaluation.plan.root = some root)
    (missing : PlacedLeaf) (found : (root.placedLeaves []).find? evaluation.unknown = some missing) (world : World σ) :
    let outcome := (evaluation.withMissing .reject).evaluate world
    outcome.result = .error (.registry (.unknownFilter missing.leaf.filter)) ∧ outcome.world = world ∧
      ∀ entry ∈ outcome.journal, ∀ path filter instruction attempt,
        entry.event ≠ .resolverCalled path filter instruction attempt := by
  rw [(evaluation.withMissing .reject).evaluate_root root planned,
    (evaluation.withMissing .reject).rejecting_outcome rfl root [] missing found world]
  refine ⟨rfl, rfl, ?_⟩
  simp [opening]

theorem evaluate_refuses (evaluation : Evaluation σ) (root : Node) (planned : evaluation.plan.root = some root)
    (world : World σ) :
    (∀ name, ((evaluation.withMissing .reject).evaluate world).result ≠ .error (.registry (.unknownFilter name))) ↔
      (root.placedLeaves []).find? evaluation.unknown = none := by
  cases found : (root.placedLeaves []).find? evaluation.unknown with
  | none =>
      have registered : evaluation.Knows (root.placedLeaves []) :=
        fun placed inside => by simpa [unknown] using List.find?_eq_none.mp found placed inside
      refine iff_of_true (fun name failed => ?_) rfl
      rw [(evaluation.withMissing .reject).evaluate_root root planned] at failed
      exact (evaluation.withMissing .reject).evaluate_node_registered root [] registered world _ failed
  | some missing =>
      have refused := (evaluation.evaluate_refused root planned missing found world).1
      exact iff_of_false (fun other => other missing.leaf.filter refused) (by simp)

theorem evaluate_skips (evaluation : Evaluation σ) (used : evaluation.engine.Used) (root : Node)
    (planned : evaluation.plan.root = some root) (world : World σ) :
    evaluation.TellsSkips (root.placedLeaves []) ((evaluation.withMissing .skip).evaluate world).journal := by
  have deepens : (evaluation.withMissing .skip).engine.Deepens := fun journal served =>
    evaluation.engine.used_served_deeper used journal (evaluation.engine.missing_served .skip journal served)
  rw [(evaluation.withMissing .skip).evaluate_root root planned]
  obtain ⟨own, inside, all, none⟩ := (evaluation.withMissing .skip).skipping_skips deepens rfl root [] world
  exact ⟨own, inside, all, fun unskipping => none fun journal served =>
    unskipping journal (evaluation.engine.missing_served .skip journal served)⟩

theorem no_skip_marks (evaluation : Evaluation σ) (leaves : List PlacedLeaf) :
    (leaves.filter evaluation.unknown).flatMap evaluation.skipMarks = [] ↔
      leaves.find? evaluation.unknown = none := by
  rw [List.flatMap_eq_nil_iff, List.find?_eq_none]
  simp [skipMarks]

-- Where no query begins inside another one, no plan is met there that was not checked: the evaluation is the same in an
-- engine in which nothing else is skipped.
theorem asks_only_alike (evaluation : Evaluation σ) (used : evaluation.engine.Used) (asksOnly : evaluation.AsksOnly)
    (policy : MissingFilterPolicy) :
    ∃ engine : Engine σ, engine.Used ∧ engine.Unskipping ∧ ∀ world, (evaluation.withMissing policy).evaluate world =
      ((ofPlan engine evaluation.registry evaluation.plan).withMissing policy).evaluate world := by
  obtain ⟨engine, registry, plan, _, rfl⟩ := evaluation
  rcases asksOnly with outside | ⟨manager, query, depth, asks, registryAsks, isEngine⟩
  · cases used with
    | alone config deadline => exact ⟨_, .alone config deadline, Engine.alone_unskipping config deadline, fun _ => rfl⟩
    | managed manager query depth => cases outside
  · dsimp only at isEngine registryAsks
    subst isEngine
    refine ⟨_, .managed manager { query with stack := 0 } depth, manager.stackless_unskipping asks query depth, ?_⟩
    have nested := manager.run_at_asks asks query 0 (depth + 1)
    have alike : Engine.Alike (fun _ => True) registry ((manager.engineAt query depth).withMissing policy)
        ((manager.engineAt { query with stack := 0 } depth).withMissing policy) :=
      Engine.scope_alike registry _ _ depth (manager.scopeAt query depth) (manager.scopeAt { query with stack := 0 } depth)
        rfl (fun name question => by rw [Manager.scopeAt, Manager.scopeAt, nested]; exact Action.alike_refl _)
        (Or.inl registryAsks)
    exact fun world => (congrFun (Action.alike_same (evaluate_alike alike plan)) world).symm

theorem evaluate_skips_nothing (evaluation : Evaluation σ) (used : evaluation.engine.Used) (root : Node)
    (planned : evaluation.plan.root = some root) (world : World σ) :
    (∀ event ∈ ((evaluation.withMissing .skip).evaluate world).journal.own evaluation.engine.level, ¬ event.Skips) ↔
      (root.placedLeaves []).find? evaluation.unknown = none := by
  rw [← Journal.own_skips_nothing, (evaluation.evaluate_skips used root planned world).1, evaluation.no_skip_marks]

theorem asks_only_skips_nothing (evaluation : Evaluation σ) (used : evaluation.engine.Used) (asksOnly : evaluation.AsksOnly)
    (root : Node) (planned : evaluation.plan.root = some root) (world : World σ) :
    ((evaluation.withMissing .skip).evaluate world).journal.Unskipped ↔
      (root.placedLeaves []).find? evaluation.unknown = none := by
  obtain ⟨engine, isUsed, unskipping, same⟩ := evaluation.asks_only_alike used asksOnly .skip
  obtain ⟨_, inside, all, none⟩ := (ofPlan engine evaluation.registry evaluation.plan).evaluate_skips isUsed root
    planned world
  rw [same world, ← Journal.skips_nothing, all, none unskipping, List.append_nil]
  exact no_skip_marks _ _

-- The check of a plan against the names in a registry tells what either policy makes of the plan there: whether it
-- has leaves with unknown filters, and which of them is the first in document order.
theorem check_foretells (evaluation : Evaluation σ) (used : evaluation.engine.Used) (root : Node)
    (planned : evaluation.plan.root = some root) (world later : World σ) :
    let check := evaluation.plan.checkFilters fun name => name ∈ evaluation.registry.names
    let rejecting := (evaluation.withMissing .reject).evaluate world
    let skipping := (evaluation.withMissing .skip).evaluate later
    (check = .ok () ↔ ∀ name, rejecting.result ≠ .error (.registry (.unknownFilter name))) ∧
      (check = .ok () ↔ ∀ event ∈ skipping.journal.own evaluation.engine.level, ¬ event.Skips) ∧
      (evaluation.AsksOnly → (check = .ok () ↔ skipping.journal.Unskipped)) ∧
      ∀ error, check = .error error → ∃ before first after, root.positions = before ++ first :: after ∧
        (∀ earlier ∈ before, earlier.leaf.filter ∈ evaluation.registry.names) ∧
        first.leaf.filter ∉ evaluation.registry.names ∧
        error = .unknownFilter first.leaf.filter (.first root.kind :: first.path) ∧
        rejecting.result = .error (.registry (.unknownFilter first.leaf.filter)) ∧ rejecting.world = world ∧
        (∀ entry ∈ rejecting.journal, ∀ path filter instruction attempt,
          entry.event ≠ .resolverCalled path filter instruction attempt) ∧
        ∃ others, skipping.journal.skips = .counted .leafSkipped ::
          .traced evaluation.fingerprint (.leafSkipped (.first root.kind :: first.path) first.leaf.filter) ::
            others := by
  intro check rejecting skipping
  have passes : check = .ok () ↔ _ := evaluation.check_passes root planned
  refine ⟨passes.trans (evaluation.evaluate_refuses root planned world).symm,
    passes.trans (evaluation.evaluate_skips_nothing used root planned later).symm,
    fun asksOnly => passes.trans (evaluation.asks_only_skips_nothing used asksOnly root planned later).symm,
    fun error failed => ?_⟩
  have isCheck : check = _ := evaluation.check_names root planned
  cases found : (root.placedLeaves []).find? evaluation.unknown with
  | none =>
      rw [passes.mpr found] at failed
      cases failed
  | some missing =>
      rw [found] at isCheck
      obtain ⟨refused, same, uncalled⟩ := evaluation.evaluate_refused root planned missing found world
      have told : ∃ others, skipping.journal.skips = evaluation.skipMarks missing ++ others := by
        obtain ⟨_, inside, all, _⟩ := evaluation.evaluate_skips used root planned later
        obtain ⟨others, first⟩ := evaluation.first_skipped _ missing found
        exact ⟨others ++ inside, by rw [all, first, List.append_assoc]⟩
      obtain ⟨before, first, after, listed, known, isUnknown, rfl⟩ :=
        root.find_placed (fun name => !evaluation.registry.contains name) missing found
      refine ⟨before, first, after, listed, fun earlier inside => ?_, ?_, Except.error.inj (failed.symm.trans isCheck),
        refused, same, uncalled, told⟩
      · simpa [evaluation.registry.contains_names] using known earlier inside
      · simpa [evaluation.registry.contains_names] using isUnknown

theorem check_foretells_mixed :
    let evaluation := namedEvaluation mixedNode
    let path : Path := [⟨.op .and, 0⟩, ⟨.op .not, 0⟩, ⟨.operand .b, 0⟩, ⟨.filter "g", 0⟩]
    evaluation.engine.Used ∧ evaluation.plan.root = some mixedNode ∧
      (evaluation.plan.checkFilters fun name => name ∈ evaluation.registry.names) = .error (.unknownFilter "g" path) ∧
      ((evaluation.withMissing .reject).evaluate ⟨(), 0⟩).result = .error (.registry (.unknownFilter "g")) ∧
      ∃ others, ((evaluation.withMissing .skip).evaluate ⟨(), 0⟩).journal.skips =
        .counted .leafSkipped :: .traced evaluation.fingerprint (.leafSkipped path "g") :: others := by
  intro evaluation path
  have used : evaluation.engine.Used := .alone .default .unbounded
  have checked : (evaluation.plan.checkFilters fun name => name ∈ evaluation.registry.names) =
      .error (.unknownFilter "g" path) := by
    rw [evaluation.check_names mixedNode rfl]
    have unknown : evaluation.unknown = fun placed => !decide ("f" = placed.leaf.filter) :=
      funext fun placed => congrArg _ (named_contains mixedNode placed.leaf.filter)
    rw [unknown, Node.placed_leaves_positions]
    rfl
  obtain ⟨before, first, after, _, _, _, same, rejected, _, _, skipped⟩ :=
    (evaluation.check_foretells used mixedNode rfl ⟨(), 0⟩ ⟨(), 0⟩).2.2.2 _ checked
  obtain ⟨isName, isPath⟩ := PlanError.unknownFilter.inj same
  rw [← isName] at rejected
  rw [← isName, ← isPath] at skipped
  exact ⟨used, rfl, checked, rejected, skipped⟩

end Evaluation

end FilterPlan
