import FilterPlan.Proofs.Meaning
import FilterPlan.Proofs.Trials

set_option autoImplicit false

namespace FilterPlan

namespace Evaluation

variable {σ : Type} (evaluation : Evaluation σ) (leaf : Leaf) (planned : evaluation.plan.root = some (.leaf leaf))
  (filter : Filter σ) (registered : evaluation.registry.find leaf.filter = .ok filter)
  (outcome : Except ResolverError IdentitySet)
  (replies : ∀ context, filter.resolver leaf.instruction context = .done outcome)
  (lasting : ∀ message, outcome ≠ .error (.transient message))

def lone : PlacedLeaf := ⟨[.first (.filter leaf.filter)], leaf⟩

include planned in
theorem lone_places : evaluation.places = [lone leaf] := by
  rw [places, Plan.places, planned]
  rfl

include registered replies in
theorem lone_reply (trial : Trial σ) (isLeaf : trial.placed.leaf = leaf) (isRegistered : trial.Registered evaluation)
    (attempt : Nat) : (trial.reply evaluation attempt).result = outcome := by
  obtain ⟨other, found, isResolver⟩ := isRegistered
  rw [isLeaf, registered] at found
  obtain rfl := Except.ok.inj found
  rw [Trial.reply, reply_before, ask, isResolver, isLeaf, replies]
  rfl

include registered replies lasting in
theorem lone_last (trial : Trial σ) (isLeaf : trial.placed.leaf = leaf) (isRegistered : trial.Registered evaluation)
    (settled : trial.Settled evaluation) : trial.last = 0 := by
  by_contra more
  obtain ⟨message, passing⟩ := settled.passing 0 (Nat.pos_of_ne_zero more)
  rw [evaluation.lone_reply leaf filter registered outcome replies trial isLeaf isRegistered] at passing
  exact lasting message passing

include registered replies lasting in
theorem lone_tried (world : World σ) (trials : List (Trial σ)) (tried : Except EvaluateError (List Stored))
    (isTried : evaluation.Tried [lone leaf] world trials tried) :
    tried = match outcome with
      | .ok rows => .ok [((lone leaf).path, rows)]
      | .error source => .error (.resolver leaf.filter (lone leaf).path 1 source) := by
  generalize isLone : [lone leaf] = leaves at isTried
  cases isTried with
  | nothing => cases isLone
  | answered trial isRegistered settled rows ended rest trials result later =>
      obtain ⟨isPlaced, rfl⟩ := List.cons.inj isLone
      have isLeaf : trial.placed.leaf = leaf := by rw [← isPlaced]; rfl
      cases later
      rw [Trial.ended, evaluation.lone_reply leaf filter registered outcome replies trial isLeaf isRegistered] at ended
      subst ended
      rw [← isPlaced]
      rfl
  | failed trial isRegistered settled source ended rest =>
      obtain ⟨isPlaced, rfl⟩ := List.cons.inj isLone
      have isLeaf : trial.placed.leaf = leaf := by rw [← isPlaced]; rfl
      have once := evaluation.lone_last leaf filter registered outcome replies lasting trial isLeaf isRegistered settled
      rw [Trial.ended, evaluation.lone_reply leaf filter registered outcome replies trial isLeaf isRegistered] at ended
      subst ended
      rw [once, isLeaf, ← isPlaced]

include planned registered replies lasting in
theorem lone_evaluated (unlimited : evaluation.engine.deadline.limitMs = none) (used : evaluation.engine.Used)
    (world : World σ) :
    match outcome with
    | .ok rows => ∃ store, (evaluation.evaluate world).result = .ok store ∧ store.Records [((lone leaf).path, rows)]
    | .error source =>
        (evaluation.evaluate world).result = .error (.resolver leaf.filter (lone leaf).path 1 source) := by
  have contained : evaluation.registry.contains leaf.filter = true :=
    (evaluation.registry.contains_find leaf.filter).mpr ⟨filter, registered⟩
  have knows : evaluation.Knows evaluation.places := by
    intro placed inside
    rw [evaluation.lone_places leaf planned, List.mem_singleton] at inside
    rw [inside]
    exact contained
  have isKnown : evaluation.known = [lone leaf] := by
    rw [known, evaluation.lone_places leaf planned]
    exact List.filter_cons_of_pos contained
  obtain ⟨trials, does⟩ := evaluation.evaluate_unlimited unlimited used (Or.inr knows) world
  obtain ⟨⟨tried, isTried, kept⟩, _⟩ := does
  rw [isKnown] at isTried
  have isOutcome := evaluation.lone_tried leaf filter registered outcome replies lasting world trials tried isTried
  generalize (evaluation.evaluate world).result = result at kept
  cases outcome with
  | ok rows =>
      subst isOutcome
      cases kept with
      | stored results store recorded => exact ⟨store, rfl, recorded⟩
  | error source =>
      subst isOutcome
      cases kept
      rfl

end Evaluation

theorem lone_merged (store : Store) (leaf : Leaf) (rows : IdentitySet)
    (recorded : store.Records [((Evaluation.lone leaf).path, rows)]) (policy : MissingOperandPolicy) :
    store.merge policy = .ok rows := by
  have results : (Node.leaf leaf).results (fun _ => some rows) = [([], rows)] := Node.results_leaf _ leaf
  have stored : store.Records
      (((Node.leaf leaf).results fun _ => some rows).map (underKeys [.first (Node.leaf leaf).kind])) := by
    rw [results]
    exact recorded
  rcases store_merged store (.leaf leaf) (fun _ => some rows) stored with ⟨nothing, _⟩ | ⟨tree, below, merged⟩
  · rw [results] at nothing
    cases nothing
  · rw [results] at below
    rw [merged policy, records_rows tree rows below]
    rfl

section Executed

variable {σ : Type} (leaf : Leaf) (filter : Filter σ) (outcome : Except ResolverError IdentitySet)
  (replies : ∀ context, filter.resolver leaf.instruction context = .done outcome)
  (lasting : ∀ message, outcome ≠ .error (.transient message))
include replies lasting

-- A plan of one leaf selects what its resolver answers, and fails as it does.
theorem Pipeline.execute_lone (pipeline : Pipeline σ) (engine : Engine σ) (unlimited : engine.deadline.limitMs = none)
    (used : engine.Used) (registered : pipeline.registry.find leaf.filter = .ok filter) (world : World σ) :
    (pipeline.execute engine (.ofNode (.leaf leaf)) world).result =
      outcome.mapError fun source => .evaluate (.resolver leaf.filter (Evaluation.lone leaf).path 1 source) := by
  have evaluated := (Evaluation.ofPlan engine pipeline.registry (.ofNode (.leaf leaf))).lone_evaluated leaf rfl filter
    registered outcome replies lasting unlimited used world
  cases outcome with
  | ok rows =>
      obtain ⟨store, stored, recorded⟩ := evaluated
      exact pipeline.execute_merged engine _ world store stored rows (lone_merged store leaf rows recorded _)
  | error source =>
      rw [pipeline.execute_result engine _ world, evaluated]
      rfl

theorem Manager.execute_lone (manager : Manager σ) (name : String) (pipeline : Pipeline σ)
    (found : manager.find name = .ok pipeline) (unlimited : manager.config.queryTimeoutMs = none)
    (registered : pipeline.registry.find leaf.filter = .ok filter) (world : World σ) :
    (manager.execute name (.ofNode (.leaf leaf)) world).result =
      outcome.mapError fun source => .evaluate (.resolver leaf.filter (Evaluation.lone leaf).path 1 source) := by
  rw [manager.execute_from_start, found]
  exact pipeline.execute_lone leaf filter outcome replies lasting (manager.engineAt (manager.queryFrom world) 0) unlimited
    (.managed _ _ _) registered world

end Executed

end FilterPlan
