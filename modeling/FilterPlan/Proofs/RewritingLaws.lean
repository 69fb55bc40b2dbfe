import FilterPlan.Proofs.Meaning
import FilterPlan.Proofs.Rearranged
import FilterPlan.Proofs.Story

set_option autoImplicit false

namespace FilterPlan

def Action.Gives {σ α : Type} (action : Action σ EvaluateError α) (value : α) : Prop :=
  ∀ world, action.Ends world fun result _ =>
    result = .ok value ∨ ∃ error, result = .error error ∧ error.isTimeout = true

namespace Action

variable {σ α β : Type}

theorem bind_gives {first : Action σ EvaluateError α} {next : α → Action σ EvaluateError β} {value : α} {other : β}
    (gives : first.Gives value) (later : (next value).Gives other) : (first >>= next).Gives other := by
  intro world
  rw [bind_ends]
  refine ends_weaken (gives world) fun result after known => ?_
  rcases known with rfl | ⟨error, rfl, late⟩
  · exact later after
  · exact .inr ⟨error, rfl, late⟩

theorem pure_gives (value : α) : (pure value : Action σ EvaluateError α).Gives value := fun _ => .inl rfl

theorem of_except_gives {result : Except EvaluateError α} {value : α} (known : result = .ok value) :
    (ofExcept result : Action σ EvaluateError α).Gives value := fun _ => .inl known

theorem record_gives (site : Site) (event : Event) : (record site event : Action σ EvaluateError Unit).Gives () :=
  fun _ => .inl rfl

end Action

namespace Evaluation

variable {σ : Type}

theorem check_gives (deadline : Deadline) : (deadline.check : Action σ EvaluateError Unit).Gives () := by
  intro world
  rw [Deadline.check_ends]
  cases late : deadline.timeout? world.now with
  | none => exact .inl rfl
  | some error => exact .inr ⟨error, rfl, deadline.timeout_is_timeout world.now error late⟩

theorem resolve_gives (evaluation : Evaluation σ) (rows : String → String → IdentitySet)
    (steady : evaluation.registry.Steady evaluation.engine.serve rows) (placed : PlacedLeaf)
    (known : evaluation.knows placed = true) :
    (evaluation.resolve placed).Gives (rows placed.leaf.filter placed.leaf.instruction) := by
  obtain ⟨filter, registered⟩ := evaluation.knows_find placed known
  have called : (evaluation.call placed filter.resolver 0).Gives
      (.ok (rows placed.leaf.filter placed.leaf.instruction)) := by
    rw [call]
    refine Action.bind_gives (check_gives _) (Action.bind_gives (Action.record_gives _ _)
      (Action.bind_gives (fun world => ?_) (Action.bind_gives (Action.record_gives _ _)
        (Action.bind_gives (check_gives _) (Action.pure_gives _)))))
    rw [Action.attempt_ends]
    exact Action.ends_weaken (steady _ filter registered _ _ world) fun result _ same => .inl (by rw [same])
  have accepted : (evaluation.accept placed 0 (rows placed.leaf.filter placed.leaf.instruction)).Gives
      (rows placed.leaf.filter placed.leaf.instruction) := fun world =>
    Action.ends_weaken (evaluation.accept_ends placed 0 _ world) fun _ _ same => .inl same.1
  rw [resolve, registered]
  refine Action.bind_gives (Action.of_except_gives rfl) ?_
  cases evaluation.engine.config.resolverRetries with
  | zero | succ retries =>
      rw [rowsOf]
      exact Action.bind_gives called accepted

theorem resolve_all_gives (evaluation : Evaluation σ) (rows : String → String → IdentitySet)
    (steady : evaluation.registry.Steady evaluation.engine.serve rows) (leaves : List PlacedLeaf)
    (known : ∀ placed ∈ leaves, evaluation.knows placed = true) :
    (evaluation.resolveAll leaves).Gives
      (leaves.map fun placed => (placed.path, rows placed.leaf.filter placed.leaf.instruction)) := by
  induction leaves with
  | nil => exact Action.pure_gives _
  | cons placed rest ih =>
      rw [resolveAll]
      exact Action.bind_gives (evaluation.resolve_gives rows steady placed (known placed List.mem_cons_self))
        (Action.bind_gives (ih fun other inside => known other (List.mem_cons_of_mem _ inside)) (Action.pure_gives _))

theorem evaluate_gives (evaluation : Evaluation σ) (skips : evaluation.engine.config.missingFilter = .skip)
    (rows : String → String → IdentitySet) (steady : evaluation.registry.Steady evaluation.engine.serve rows)
    (root : Node) (planned : evaluation.plan.root = some root) :
    ∃ store, evaluation.evaluate.Gives store ∧ store.Records
      ((root.results (Node.rowsOf (evaluation.registry.answer rows))).map (underKeys [.first root.kind])) := by
  have gives := evaluation.resolve_all_gives rows steady ((root.placedLeaves []).filter evaluation.knows)
    fun placed inside => (List.mem_filter.mp inside).2
  obtain ⟨store, filled, recorded⟩ := fill_chosen root [] ((root.placedLeaves []).filter evaluation.knows)
    List.filter_sublist (((root.placedLeaves []).filter evaluation.knows).map fun placed =>
      (placed.path, rows placed.leaf.filter placed.leaf.instruction)) (by rw [List.map_map]; rfl)
  rw [steady_results] at recorded
  refine ⟨store, ?_, recorded⟩
  rw [evaluate_root evaluation root planned]
  have chosen : (evaluation.choose (root.placedLeaves [])).Gives ((root.placedLeaves []).filter evaluation.knows) :=
    fun world => Action.ends_weaken (evaluation.choose_ends _ world) fun _ _ known => .inl (known.2.2.2 (.inl skips))
  have stores : (evaluation.storeLeaves (root.placedLeaves [])).Gives store := by
    rw [storeLeaves]
    exact Action.bind_gives (Action.record_gives _ _) (Action.bind_gives (Action.record_gives _ _)
      (Action.bind_gives chosen (Action.bind_gives gives (Action.of_except_gives filled))))
  intro world
  rw [evaluateNode]
  exact Action.on_failure_ends _ _ _ _ evaluation.fault_quiet (stores world)

end Evaluation

theorem MissingOperandPolicy.intolerant (policy : MissingOperandPolicy) (other : policy ≠ .empty) :
    policy = .reject := by
  cases policy with
  | empty => exact absurd rfl other
  | reject => rfl

namespace Node

/-- How the execution of a plan ends that is not out of time: with the value of its root, or without one of the operands
of a NOT where the policy has it so. -/
structure Yields (root : Node) (answer : Leaf → Option IdentitySet) (policy : MissingOperandPolicy)
    (result : Except PipelineError IdentitySet) : Prop where
  succeeds : policy = .empty ∨ ¬ Halved (answers answer) root →
    ∃ rows, result = .ok rows ∧ rows.members = (root.value (answers answer)).getD ∅
  fails : policy = .reject → Halved (answers answer) root →
    ∃ path side, result = .error (.merge (.missingOperand path side))

theorem rearranged_yields (m n : Node) (rearranged : m.Rearranged n) (answer : Leaf → Option IdentitySet)
    (policy : MissingOperandPolicy) (result : Except PipelineError IdentitySet)
    (yields : m.Yields answer policy result) : n.Yields answer policy result := by
  have sameValue := rearranged_kept (fun node => node.value (answers answer)) (rewrites_value (answers answer)) m n
    rearranged
  have sameHalves := rearranged_kept (Halved (answers answer))
    (fun m n rewrites => propext (rewrites_halved (answers answer) m n rewrites)) m n rearranged
  exact ⟨by rw [← sameHalves, ← sameValue]; exact yields.succeeds, by rw [← sameHalves]; exact yields.fails⟩

theorem yields_alike (root : Node) (answer : Leaf → Option IdentitySet) (policy : MissingOperandPolicy)
    (first second : Except PipelineError IdentitySet) (yieldsFirst : root.Yields answer policy first)
    (yieldsSecond : root.Yields answer policy second) :
    (∃ rows, first = .ok rows ∧ second = .ok rows) ∨
      policy = .reject ∧ (∃ path side, first = .error (.merge (.missingOperand path side))) ∧
        ∃ path side, second = .error (.merge (.missingOperand path side)) := by
  by_cases succeeds : policy = .empty ∨ ¬ Halved (answers answer) root
  · obtain ⟨rows, isFirst, isValue⟩ := yieldsFirst.succeeds succeeds
    obtain ⟨others, isSecond, isOther⟩ := yieldsSecond.succeeds succeeds
    have same := OrderedSet.ext_members rows others (isValue.trans isOther.symm)
    exact .inl ⟨rows, isFirst, same ▸ isSecond⟩
  · obtain ⟨notEmpty, halved⟩ := not_or.mp succeeds
    have rejects := policy.intolerant notEmpty
    have isHalved := Classical.not_not.mp halved
    exact .inr ⟨rejects, yieldsFirst.fails rejects isHalved, yieldsSecond.fails rejects isHalved⟩

theorem value_not_self (node : Node) (answer : Leaf → Option (Set Identity)) :
    ((Node.not node node).value answer).getD ∅ = ∅ := by
  rw [value]
  cases node.value answer with
  | none => rfl
  | some set => exact Set.eq_empty_of_forall_notMem fun identity inside => inside.2 inside.1

theorem yields_whole (root : Node) (answer : Leaf → Option IdentitySet) (policy : MissingOperandPolicy)
    (rows : IdentitySet) (yields : root.Yields answer policy (.ok rows)) :
    policy = .empty ∨ ¬ Halved (answers answer) root := by
  by_cases tolerant : policy = .empty
  · exact .inl tolerant
  · refine .inr fun halved => ?_
    obtain ⟨path, side, failed⟩ := yields.fails (policy.intolerant tolerant) halved
    cases failed

theorem not_self_nothing (node : Node) (answer : Leaf → Option IdentitySet) (policy : MissingOperandPolicy)
    (result : Except PipelineError IdentitySet) (yields : (Node.not node node).Yields answer policy result)
    (whole : policy = .empty ∨ ¬ Halved (answers answer) node) : result = .ok .empty := by
  have noneHalved : policy = .empty ∨ ¬ Halved (answers answer) (.not node node) := by simpa using whole
  obtain ⟨rows, isRows, isValue⟩ := yields.succeeds noneHalved
  have nothing : rows = .empty := by
    apply OrderedSet.ext_members
    rw [isValue, value_not_self, OrderedSet.members_empty]
  rw [isRows, nothing]

end Node

theorem store_halved (store : Store) (root : Node) (answer : Leaf → Option IdentitySet)
    (recorded : store.Records ((root.results (Node.rowsOf answer)).map (underKeys [.first root.kind]))) :
    (∀ merged, store.merge .reject = .ok merged →
      store.merge .empty = .ok merged ∧ ¬ Node.Halved (Node.answers answer) root) ∧
      ∀ path side, store.merge .reject = .error (.missingOperand path side) →
        Node.Halved (Node.answers answer) root := by
  rw [← Node.lacking_halved]
  rcases store_merged store root _ recorded with ⟨nothing, merged⟩ | ⟨tree, below, merged⟩
  · rw [merged, merged, nothing]
    refine ⟨fun found isFound => ⟨isFound, ?_⟩, fun path side failed => by cases failed⟩
    rintro ⟨part, _, side, lacks⟩
    exact Node.lacks_only_nothing part side lacks
  · have rejects := root.node_reject (Node.rowsOf answer) [.first root.kind] tree below
    rw [merged, merged]
    constructor
    · intro found isFound
      obtain ⟨tolerated, none⟩ := rejects.passes found isFound
      refine ⟨tolerated, ?_⟩
      rintro ⟨part, inside, side, lacks⟩
      exact none part inside side lacks
    · intro path side failed
      obtain ⟨part, inside, _, lacks⟩ := rejects.fails path side failed
      exact ⟨part, inside, side, lacks⟩

theorem store_yields (store : Store) (root : Node) (answer : Leaf → Option IdentitySet) (policy : MissingOperandPolicy)
    (recorded : store.Records ((root.results (Node.rowsOf answer)).map (underKeys [.first root.kind]))) :
    root.Yields answer policy ((store.merge policy).mapError .merge) := by
  obtain ⟨rows, isMerged, isValue⟩ := store_value store root answer recorded
  obtain ⟨passes, fails⟩ := store_halved store root answer recorded
  constructor
  · intro succeeds
    refine ⟨rows, ?_, isValue⟩
    cases policy with
    | empty => rw [isMerged]; rfl
    | reject =>
        have whole : ¬ Node.Halved (Node.answers answer) root := succeeds.resolve_left (by simp)
        cases rejected : store.merge .reject with
        | ok found =>
            rw [Except.ok.inj ((passes found rejected).1.symm.trans isMerged)]
            rfl
        | error error =>
            obtain ⟨path, side⟩ := error
            exact absurd (fails path side rejected) whole
  · rintro rfl halved
    cases rejected : store.merge .reject with
    | ok found => exact absurd halved (passes found rejected).2
    | error error =>
        obtain ⟨path, side⟩ := error
        exact ⟨path, side, rfl⟩

def OutOfTime (result : Except PipelineError IdentitySet) : Prop :=
  ∃ error, result = .error (.evaluate error) ∧ error.isTimeout = true

inductive Plan.Rearranged : Plan → Plan → Prop where
  | unfiltered : Rearranged .unfiltered .unfiltered
  | filtered {m n : Node} (rearranged : m.Rearranged n) : Rearranged (.ofNode m) (.ofNode n)

namespace Pipeline

variable {σ : Type}

theorem execute_yields (pipeline : Pipeline σ) (engine : Engine σ) (skips : engine.config.missingFilter = .skip)
    (rows : String → String → IdentitySet) (steady : pipeline.registry.Steady engine.serve rows) (root : Node)
    (world : World σ) :
    OutOfTime (pipeline.execute engine (.ofNode root) world).result ∨
      root.Yields (pipeline.registry.answer rows) engine.config.missingOperand
        (pipeline.execute engine (.ofNode root) world).result := by
  obtain ⟨store, gives, recorded⟩ :=
    (Evaluation.ofPlan engine pipeline.registry (.ofNode root)).evaluate_gives skips rows steady root rfl
  rw [execute_result]
  rcases gives world with stored | ⟨error, failed, late⟩
  · rw [stored]
    exact .inr (store_yields store root _ _ recorded)
  · rw [failed]
    exact .inl ⟨error, rfl, late⟩

theorem execute_in_time (pipeline : Pipeline σ) (engine : Engine σ) (skips : engine.config.missingFilter = .skip)
    (unlimited : engine.deadline.limitMs = none) (willing : pipeline.registry.Willing engine.serve) (root : Node)
    (world : World σ) : ¬ OutOfTime (pipeline.execute engine (.ofNode root) world).result := by
  obtain ⟨store, stored⟩ := (Evaluation.ofPlan engine pipeline.registry (.ofNode root)).evaluate_willing skips
    unlimited willing world
  rw [execute_result, stored]
  rintro ⟨error, failed, _⟩
  dsimp only at failed
  cases merged : store.merge engine.config.missingOperand with
  | ok rows => simp [merged, Except.mapError] at failed
  | error other => simp [merged, Except.mapError] at failed

theorem execute_domain (pipeline : Pipeline σ) (engine : Engine σ) (world : World σ) :
    (pipeline.execute engine .unfiltered world).result = .ok pipeline.domain := by
  rw [pipeline.execute_unfiltered engine .unfiltered rfl]
  rfl

-- Rearranging a plan does not change what it selects, nor whether it is rejected. A difference of a plan and itself
-- selects nothing. Executions may run out of time, each on its own, but not without a limit.
theorem rearranged_alike (pipeline : Pipeline σ) (engine : Engine σ) (skips : engine.config.missingFilter = .skip)
    (rows : String → String → IdentitySet) (steady : pipeline.registry.Steady engine.serve rows) :
    let result (plan : Plan) (world : World σ) := (pipeline.execute engine plan world).result
    (engine.deadline.limitMs = none → ∀ plan world, ¬ OutOfTime (result plan world)) ∧
      (∀ p q : Plan, p.Rearranged q → ∀ world later, ¬ OutOfTime (result p world) → ¬ OutOfTime (result q later) →
        (∃ set, result p world = .ok set ∧ result q later = .ok set) ∨
          engine.config.missingOperand = .reject ∧
            (∃ path side, result p world = .error (.merge (.missingOperand path side))) ∧
              ∃ path side, result q later = .error (.merge (.missingOperand path side))) ∧
      ∀ (node : Node) (world : World σ), ¬ OutOfTime (result (.ofNode (.not node node)) world) →
        (engine.config.missingOperand = .empty ∨ ∃ earlier set, result (.ofNode node) earlier = .ok set) →
          result (.ofNode (.not node node)) world = .ok .empty := by
  intro result
  have yields (root : Node) (world : World σ) (inTime : ¬ OutOfTime (result (.ofNode root) world)) :
      root.Yields (pipeline.registry.answer rows) engine.config.missingOperand (result (.ofNode root) world) :=
    (pipeline.execute_yields engine skips rows steady root world).resolve_left inTime
  refine ⟨fun unlimited plan world => ?_, ?_, ?_⟩
  · obtain ⟨_ | root⟩ := plan
    · rintro ⟨error, failed, _⟩
      cases (pipeline.execute_domain engine world).symm.trans failed
    · exact pipeline.execute_in_time engine skips unlimited (Registry.steady_willing _ _ rows steady) root world
  · intro p q rearranged world later inTime laterInTime
    cases rearranged with
    | unfiltered =>
        exact .inl ⟨pipeline.domain, pipeline.execute_domain engine world, pipeline.execute_domain engine later⟩
    | @filtered m n rearranged =>
        exact n.yields_alike _ _ _ _ (Node.rearranged_yields m n rearranged _ _ _ (yields m world inTime))
          (yields n later laterInTime)
  · intro node world inTime allowed
    refine node.not_self_nothing _ _ _ (yields (.not node node) world inTime) ?_
    rcases allowed with tolerant | ⟨earlier, set, executed⟩
    · exact .inl tolerant
    · have earlierInTime : ¬ OutOfTime (result (.ofNode node) earlier) := by
        rintro ⟨error, failed, _⟩
        cases executed.symm.trans failed
      exact node.yields_whole _ _ set (executed ▸ yields node earlier earlierInTime)

theorem rearranged_alike_spliced :
    let nested : Node := .and [.leaf ⟨"f", "x"⟩, .and [.leaf ⟨"f", "x"⟩, .leaf ⟨"g", "y"⟩]]
    let flat : Node := .and [.leaf ⟨"g", "y"⟩, .leaf ⟨"f", "x"⟩, .leaf ⟨"f", "x"⟩]
    let result (root : Node) := (patchyPipeline.execute standalone (.ofNode root) ⟨(), 0⟩).result
    patchyPipeline.registry.Steady standalone.serve (fun _ => named) ∧ nested.Rearranged flat ∧
      (∃ set, result nested = .ok set ∧ result flat = .ok set) ∧ result (.not nested nested) = .ok .empty := by
  intro nested flat result
  have steady : patchyPipeline.registry.Steady standalone.serve fun _ => named :=
    Registry.answering_steady "f" named _
  have rearranged : nested.Rearranged flat := by
    refine .trans _ _ _ (.rel _ _ (.spliceAnd [.leaf ⟨"f", "x"⟩] [.leaf ⟨"f", "x"⟩, .leaf ⟨"g", "y"⟩] []))
      (.rel _ _ (.permuteAnd ?_))
    decide
  obtain ⟨inTime, alike, itself⟩ := patchyPipeline.rearranged_alike standalone rfl (fun _ => named) steady
  refine ⟨steady, rearranged, ?_, itself nested ⟨(), 0⟩ (inTime rfl _ _) (.inl rfl)⟩
  exact (alike _ _ (.filtered rearranged) ⟨(), 0⟩ ⟨(), 0⟩ (inTime rfl _ _) (inTime rfl _ _)).resolve_right
    fun rejected => by cases rejected.1

end Pipeline

end FilterPlan
