import FilterPlan.Evaluation
import FilterPlan.Proofs.Action
import FilterPlan.Proofs.Registry
import FilterPlan.Proofs.Results
import FilterPlan.Proofs.Walk
import Mathlib.Data.List.Basic

set_option autoImplicit false

namespace FilterPlan

def EvaluateError.Collision (error : EvaluateError) : Prop := ∃ path, error = .pathCollision path

namespace Deadline

variable {σ : Type}

theorem check_ends (deadline : Deadline) (world : World σ) (post : Except EvaluateError Unit → World σ → Prop) :
    (deadline.check).Ends world post ↔
      match deadline.timeout? world.now with
      | none => post (.ok ()) world
      | some error => post (.error error) world := by
  rw [Action.Ends, check]
  cases deadline.timeout? world.now <;> rfl

theorem timeout_collision (deadline : Deadline) (now : Nat) (error : EvaluateError)
    (late : deadline.timeout? now = some error) : ¬ error.Collision := by
  rintro ⟨path, rfl⟩
  rw [timeout?] at late
  cases limit : deadline.limitMs with
  | none => simp [limit] at late
  | some limitMs =>
      rw [limit] at late
      dsimp only at late
      split at late <;> simp at late

end Deadline

namespace Evaluation

variable {σ : Type}

def Harmless {α : Type} (result : Except EvaluateError α) : Prop := ∀ error, result = .error error → ¬ error.Collision

theorem harmless_ok {α : Type} (value : α) : Harmless (.ok value) := by
  intro error failed
  simp at failed

theorem harmless_error {α β : Type} (error : EvaluateError)
    (harmless : Harmless (.error error : Except EvaluateError α)) :
    Harmless (.error error : Except EvaluateError β) := by
  intro other same
  rw [← Except.error.inj same]
  exact harmless error rfl

theorem call_harmless (evaluation : Evaluation σ) (placed : PlacedLeaf) (resolver : Resolver σ) (attempt : Nat)
    (world : World σ) : (evaluation.call placed resolver attempt).Ends world fun result _ => Harmless result := by
  have late (now : Nat) (error : EvaluateError) (found : evaluation.engine.deadline.timeout? now = some error) :
      Harmless (.error error : Except EvaluateError (Except ResolverError IdentitySet)) := by
    rintro other same
    rw [← Except.error.inj same]
    exact Deadline.timeout_collision _ _ _ found
  rw [call]
  simp only [Action.bind_ends, Deadline.check_ends, Action.record_ends, Action.attempt_ends]
  cases early : evaluation.engine.deadline.timeout? world.now with
  | some error => exact late _ error early
  | none =>
      simp only [Action.Ends]
      cases slow : evaluation.engine.deadline.timeout?
          ((resolver placed.leaf.instruction (evaluation.context placed.path attempt)).perform
            evaluation.engine.serve world).world.now with
      | some error => exact late _ error slow
      | none => exact harmless_ok _

theorem fail_harmless {α : Type} (error : EvaluateError) (world : World σ) (harmless : ¬ error.Collision) :
    (Action.fail error : Action σ EvaluateError α).Ends world fun result _ => Harmless result := by
  intro other same
  rwa [← Except.error.inj same]

theorem accept_ends (evaluation : Evaluation σ) (placed : PlacedLeaf) (attempt : Nat) (rows : IdentitySet)
    (world : World σ) :
    (evaluation.accept placed attempt rows).Ends world fun result after => result = .ok rows ∧ after = world := by
  rw [accept, count, trace]
  simp only [Action.bind_ends, Action.count_ends, Action.record_ends, Action.pure_ends]
  trivial

theorem give_up_harmless (evaluation : Evaluation σ) (placed : PlacedLeaf) (attempt : Nat) (source : ResolverError)
    (world : World σ) : (evaluation.giveUp placed attempt source).Ends world fun result _ => Harmless result := by
  rw [giveUp, count]
  simp only [Action.bind_ends, Action.count_ends]
  exact fail_harmless _ world (by simp [EvaluateError.Collision])

theorem answer_harmless (evaluation : Evaluation σ) (placed : PlacedLeaf) (resolver : Resolver σ) (attempt : Nat)
    (world : World σ) (react : Except ResolverError IdentitySet → Action σ EvaluateError IdentitySet)
    (reacts : ∀ outcome after, (react outcome).Ends after fun result _ => Harmless result) :
    (evaluation.call placed resolver attempt >>= react).Ends world fun result _ => Harmless result := by
  rw [Action.bind_ends]
  refine Action.ends_weaken (evaluation.call_harmless placed resolver attempt world) fun result after known => ?_
  cases result with
  | ok outcome => exact reacts outcome after
  | error error => exact harmless_error error known

theorem rows_of_harmless (evaluation : Evaluation σ) (placed : PlacedLeaf) (resolver : Resolver σ)
    (retries attempt : Nat) (world : World σ) :
    (evaluation.rowsOf placed resolver retries attempt).Ends world fun result _ => Harmless result := by
  have accepts (attempt : Nat) (rows : IdentitySet) (after : World σ) :
      (evaluation.accept placed attempt rows).Ends after fun result _ => Harmless result := by
    refine Action.ends_weaken (evaluation.accept_ends placed attempt rows after) fun result _ known => ?_
    rw [known.1]
    exact harmless_ok rows
  induction retries generalizing attempt world with
  | zero =>
      rw [rowsOf]
      refine evaluation.answer_harmless placed resolver attempt world _ fun outcome after => ?_
      cases outcome with
      | ok rows => exact accepts attempt rows after
      | error source => exact evaluation.give_up_harmless placed attempt source after
  | succ retries ih =>
      rw [rowsOf]
      refine evaluation.answer_harmless placed resolver attempt world _ fun outcome after => ?_
      cases outcome with
      | ok rows => exact accepts attempt rows after
      | error source =>
          by_cases passing : source.isTransient
          · simp only [passing, if_true, count, Action.bind_ends, Action.count_ends]
            exact ih (attempt + 1) after
          · simp only [passing]
            exact evaluation.give_up_harmless placed attempt source after

theorem resolve_harmless (evaluation : Evaluation σ) (placed : PlacedLeaf) (world : World σ) :
    (evaluation.resolve placed).Ends world fun result _ => Harmless result := by
  rw [resolve, Action.bind_ends, Action.of_except_ends]
  cases evaluation.registry.find placed.leaf.filter with
  | ok filter => exact evaluation.rows_of_harmless placed filter.resolver _ 0 world
  | error error => exact fail_harmless _ world (by simp [EvaluateError.Collision])

theorem resolve_all_ends (evaluation : Evaluation σ) (leaves : List PlacedLeaf) (world : World σ) :
    (evaluation.resolveAll leaves).Ends world fun result _ =>
      Harmless result ∧ ∀ results, result = .ok results → results.map Prod.fst = leaves.map PlacedLeaf.path := by
  induction leaves generalizing world with
  | nil => exact ⟨harmless_ok [], by simp [Action.done, resolveAll]⟩
  | cons placed rest ih =>
      rw [resolveAll, Action.bind_ends]
      refine Action.ends_weaken (evaluation.resolve_harmless placed world) fun result after known => ?_
      cases result with
      | error error => exact ⟨harmless_error error known, by simp⟩
      | ok rows =>
          simp only [Action.bind_ends]
          refine Action.ends_weaken (ih after) fun result final later => ?_
          cases result with
          | error error => exact ⟨harmless_error error later.1, by simp⟩
          | ok others =>
              refine ⟨harmless_ok _, fun results same => ?_⟩
              rw [← Except.ok.inj same, List.map_cons, List.map_cons, later.2 others rfl]

def knows (evaluation : Evaluation σ) (placed : PlacedLeaf) : Bool := evaluation.registry.contains placed.leaf.filter

theorem skip_unknown_ends {ε : Type} (evaluation : Evaluation σ) (leaves : List PlacedLeaf) (world : World σ) :
    (evaluation.skipUnknown leaves : Action σ ε (List PlacedLeaf)).Ends world fun result after =>
      result = .ok (leaves.filter evaluation.knows) ∧ after = world := by
  induction leaves with
  | nil => exact ⟨rfl, rfl⟩
  | cons placed rest ih =>
      rw [skipUnknown]
      by_cases known : evaluation.knows placed
      · rw [List.filter_cons_of_pos known]
        rw [knows] at known
        rw [if_pos known, Action.bind_ends]
        refine Action.ends_weaken ih fun result after later => ?_
        obtain ⟨rfl, rfl⟩ := later
        exact ⟨rfl, rfl⟩
      · rw [List.filter_cons_of_neg known]
        rw [knows] at known
        rw [if_neg known]
        simp only [count, trace, Action.bind_ends, Action.count_ends, Action.record_ends]
        exact ih

theorem choose_ends (evaluation : Evaluation σ) (leaves : List PlacedLeaf) (world : World σ) :
    (evaluation.choose leaves).Ends world fun result after => Harmless result ∧ after = world ∧
      (∀ chosen, result = .ok chosen → chosen = leaves.filter evaluation.knows) ∧
      (evaluation.engine.config.missingFilter = .skip ∨ (∀ placed ∈ leaves, evaluation.knows placed = true) →
        result = .ok (leaves.filter evaluation.knows)) := by
  rw [choose]
  cases evaluation.engine.config.missingFilter with
  | skip =>
      refine Action.ends_weaken (evaluation.skip_unknown_ends leaves world) fun result after known => ?_
      obtain ⟨rfl, rfl⟩ := known
      exact ⟨harmless_ok _, rfl, fun chosen same => (Except.ok.inj same).symm, fun _ => rfl⟩
  | reject =>
      cases unknown : leaves.find? fun placed => !evaluation.registry.contains placed.leaf.filter with
      | none =>
          have all : ∀ placed ∈ leaves, evaluation.knows placed = true := by
            simpa [knows] using unknown
          have kept : leaves.filter evaluation.knows = leaves := List.filter_eq_self.mpr all
          rw [kept]
          exact ⟨harmless_ok _, rfl, fun chosen same => (Except.ok.inj same).symm, fun _ => rfl⟩
      | some placed =>
          refine ⟨fail_harmless _ world (by simp [EvaluateError.Collision]), rfl, by simp [Action.fail], ?_⟩
          have missing := List.find?_some unknown
          have inside := List.mem_of_find?_eq_some unknown
          rintro (never | all)
          · simp at never
          · have registered := all placed inside
            rw [knows] at registered
            simp [registered] at missing

-- Writing succeeds as long as no position lies at, above or below another one.
theorem fill_apart (results : List Stored) (store : Store) (sound : store.Sound)
    (deep : ∀ result ∈ results, result.1 ≠ [])
    (apart : (store.entries ++ results).Pairwise fun p q => Apart p.1 q.1) :
    ∃ filled, fill results store = .ok filled ∧ filled.Sound ∧ filled.entries.Perm (store.entries ++ results) := by
  induction results generalizing store with
  | nil => exact ⟨store, rfl, sound, by simp⟩
  | cons result rest ih =>
      obtain ⟨path, rows⟩ := result
      have free : (store.insert path rows).2 = true := by
        rw [Store.insert_written store sound path rows]
        refine ⟨deep (path, rows) (by simp), fun entry inside => ?_⟩
        exact (List.pairwise_append.mp apart).2.2 entry inside (path, rows) (by simp)
      have inserted := Store.insert_entries store path rows free
      have moved : ((store.insert path rows).1.entries ++ rest).Perm (store.entries ++ (path, rows) :: rest) :=
        (inserted.append_right rest).trans List.perm_middle.symm
      have still : ((store.insert path rows).1.entries ++ rest).Pairwise fun p q => Apart p.1 q.1 :=
        apart.perm moved.symm fun {p q} => apart_symm p.1 q.1
      obtain ⟨filled, isFilled, filledSound, listed⟩ :=
        ih _ (Store.insert_sound store sound path rows free) (fun other inside => deep other (by simp [inside])) still
      refine ⟨filled, ?_, filledSound, listed.trans moved⟩
      rw [fill]
      rcases written : store.insert path rows with ⟨next, flag⟩
      rw [written] at free isFilled
      simp only at free
      subst free
      exact isFilled

def faultMarks (evaluation : Evaluation σ) (error : EvaluateError) (now : Nat) : Journal :=
  (if error.isTimeout then [⟨evaluation.engine.site, now, .counted .timeout⟩] else []) ++
    [⟨evaluation.engine.site, now, .traced evaluation.fingerprint (.error error.failureClass .evaluate)⟩]

theorem fault_outcome (evaluation : Evaluation σ) (error : EvaluateError) (world : World σ) :
    evaluation.fault error world = ⟨.ok (), world, evaluation.faultMarks error world.now⟩ := by
  rw [fault, faultMarks]
  by_cases late : error.isTimeout
  · rw [if_pos late, if_pos late]
    rfl
  · rw [if_neg late, if_neg late]
    rfl

theorem fault_quiet (evaluation : Evaluation σ) (error : EvaluateError) (world : World σ) :
    (evaluation.fault error).Ends world fun result after => result = .ok () ∧ after = world := by
  rw [Action.Ends, fault_outcome]
  exact ⟨rfl, rfl⟩

theorem placed_leaves_deep (node : Node) (base : Path) (leaves : List PlacedLeaf)
    (chosen : leaves.Sublist (node.placedLeaves base)) (results : List Stored)
    (same : results.map Prod.fst = leaves.map PlacedLeaf.path) : ∀ result ∈ results, result.1 ≠ [] := by
  intro result inside
  have listed : result.1 ∈ leaves.map PlacedLeaf.path := same ▸ List.mem_map_of_mem inside
  obtain ⟨placed, known, isPath⟩ := List.mem_map.mp listed
  have placedBelow := chosen.subset known
  rw [Node.placed_leaves_positions] at placedBelow
  obtain ⟨position, _, rfl⟩ := List.mem_map.mp placedBelow
  rw [← isPath]
  simp [PlacedLeaf.below]

theorem fill_chosen (node : Node) (base : Path) (leaves : List PlacedLeaf)
    (chosen : leaves.Sublist (node.placedLeaves base)) (results : List Stored)
    (same : results.map Prod.fst = leaves.map PlacedLeaf.path) :
    ∃ store, fill results .empty = .ok store ∧ store.Records results := by
  have apart : results.Pairwise fun p q => Apart p.1 q.1 := by
    have leavesApart := (Node.placed_leaves_apart base node).sublist chosen
    rw [← List.pairwise_map (f := PlacedLeaf.path) (R := Apart), ← same, List.pairwise_map] at leavesApart
    exact leavesApart
  obtain ⟨store, filled, sound, listed⟩ := fill_apart results .empty Store.empty_sound
    (placed_leaves_deep node base leaves chosen results same) (by rwa [Store.empty_entries])
  rw [Store.empty_entries] at listed
  exact ⟨store, filled, sound, listed⟩

-- A run of an evaluation: it fails without a collision, or its store holds results at the positions of known leaves.
theorem evaluate_node_ends (evaluation : Evaluation σ) (node : Node) (base : Path) (world : World σ) :
    (evaluation.evaluateNode node base).Ends world fun result _ => Harmless result ∧
      ∀ store, result = .ok store → ∃ results, store.Records results ∧
        results.map Prod.fst = ((node.placedLeaves base).filter evaluation.knows).map PlacedLeaf.path := by
  rw [evaluateNode]
  refine Action.on_failure_ends _ _ _ _ evaluation.fault_quiet ?_
  rw [storeLeaves, count, trace]
  simp only [Action.bind_ends, Action.count_ends, Action.record_ends]
  refine Action.ends_weaken (evaluation.choose_ends (node.placedLeaves base) world) fun result after known => ?_
  cases result with
  | error error => exact ⟨harmless_error error known.1, by simp⟩
  | ok chosen =>
      obtain ⟨_, _, isChosen, _⟩ := known
      have isKnown := isChosen chosen rfl
      subst isKnown
      refine Action.ends_weaken (evaluation.resolve_all_ends _ after) fun result final resolved => ?_
      cases result with
      | error error => exact ⟨harmless_error error resolved.1, by simp⟩
      | ok results =>
          have same := resolved.2 results rfl
          obtain ⟨store, filled, holds⟩ := fill_chosen node base _ List.filter_sublist results same
          simp only [Action.of_except_ends, filled]
          refine ⟨harmless_ok store, fun found isFound => ⟨results, ?_, same⟩⟩
          rwa [← Except.ok.inj isFound]

theorem lookup_results (places : List PlacedLeaf) (distinct : (places.map PlacedLeaf.path).Nodup)
    (results : List Stored) (among : (results.map Prod.fst).Sublist (places.map PlacedLeaf.path)) :
    places.filterMap (fun placed => (results.lookup placed.path).map fun rows => (placed.path, rows)) = results := by
  induction places generalizing results with
  | nil =>
      have nothing := List.eq_nil_of_sublist_nil among
      simp [List.map_eq_nil_iff.mp nothing]
  | cons place rest ih =>
      obtain ⟨fresh, distinctRest⟩ := List.nodup_cons.mp distinct
      cases results with
      | nil => simp
      | cons result others =>
          obtain ⟨path, rows⟩ := result
          simp only [List.map_cons] at among
          by_cases here : place.path = path
          · subst here
            have later := List.cons_sublist_cons.mp among
            have skipped : rest.filterMap (fun placed =>
                (((place.path, rows) :: others).lookup placed.path).map fun rows => (placed.path, rows)) = others := by
              refine (List.filterMap_congr fun placed inside => ?_).trans (ih distinctRest others later)
              have different : placed.path ≠ place.path := fun same => fresh (same ▸ List.mem_map_of_mem inside)
              rw [List.lookup_cons, beq_eq_false_iff_ne.mpr different]
            rw [List.filterMap_cons, skipped]
            simp
          · have later := (List.sublist_cons_iff.mp among).resolve_right (by simp [Ne.symm here])
            have missing : ((path, rows) :: others).lookup place.path = none := by
              refine List.lookup_eq_none_iff.mpr fun result inside => ?_
              refine bne_iff_ne.mpr fun same => fresh (later.subset ?_)
              rw [same]
              exact List.mem_map_of_mem (f := Prod.fst) inside
            rw [List.filterMap_cons, missing]
            exact ih distinctRest _ later

theorem evaluate_root (evaluation : Evaluation σ) (root : Node) (planned : evaluation.plan.root = some root) :
    evaluation.evaluate = evaluation.evaluateNode root [] := by
  rw [evaluate, planned]

theorem stored_results (evaluation : Evaluation σ) (node : Node) (world : World σ) (store : Store)
    (stored : (evaluation.evaluateNode node [] world).result = .ok store) :
    ∃ rows, store.Records ((node.results rows).map (underKeys [.first node.kind])) := by
  obtain ⟨results, recorded, listed⟩ := (evaluation.evaluate_node_ends node [] world).2 store stored
  have among : (results.map Prod.fst).Sublist ((node.placedLeaves []).map PlacedLeaf.path) := by
    rw [listed]
    exact List.filter_sublist.map _
  have distinct : ((node.placedLeaves []).map PlacedLeaf.path).Nodup := by
    rw [List.nodup_iff_pairwise_ne, List.pairwise_map]
    exact (node.placed_leaves_apart []).imp fun {p q} apart => apart_ne p.path q.path apart
  refine ⟨fun placed => results.lookup (.first node.kind :: placed.path), ?_⟩
  have found := lookup_results _ distinct results among
  rw [Node.placed_leaves_positions, List.filterMap_map] at found
  have same : (node.results fun placed => results.lookup (.first node.kind :: placed.path)).map
      (underKeys [.first node.kind]) = results := by
    refine Eq.trans ?_ found
    rw [Node.results, List.map_filterMap]
    refine List.filterMap_congr fun placed _ => ?_
    simp [PlacedLeaf.below, underKeys, Function.comp_def]
  rwa [same]

-- The leaves are answered one after the other, each at the first call, and no time is up before or after a call.
inductive Answered (evaluation : Evaluation σ) : List PlacedLeaf → World σ → List Stored → Prop where
  | nothing (world : World σ) : Answered evaluation [] world []
  | answer (placed : PlacedLeaf) (rest : List PlacedLeaf) (filter : Filter σ) (world after : World σ)
      (rows : IdentitySet) (others : List Stored)
      (registered : evaluation.registry.find placed.leaf.filter = .ok filter)
      (early : evaluation.engine.deadline.timeout? world.now = none)
      (resolved : ((filter.resolver placed.leaf.instruction (evaluation.context placed.path 0)).perform
        evaluation.engine.serve).Ends world fun result final => result = .ok rows ∧ final = after)
      (inTime : evaluation.engine.deadline.timeout? after.now = none)
      (later : Answered evaluation rest after others) :
      Answered evaluation (placed :: rest) world ((placed.path, rows) :: others)

theorem answered_paths (evaluation : Evaluation σ) (leaves : List PlacedLeaf) (world : World σ)
    (results : List Stored) (answered : evaluation.Answered leaves world results) :
    results.map Prod.fst = leaves.map PlacedLeaf.path := by
  induction answered with
  | nothing world => rfl
  | answer placed rest filter world after rows others registered early resolved inTime later ih =>
      rw [List.map_cons, List.map_cons, ih]

theorem rows_of_answered (evaluation : Evaluation σ) (placed : PlacedLeaf) (resolver : Resolver σ)
    (retries attempt : Nat) (world after : World σ) (rows : IdentitySet)
    (early : evaluation.engine.deadline.timeout? world.now = none)
    (resolved : ((resolver placed.leaf.instruction (evaluation.context placed.path attempt)).perform
      evaluation.engine.serve).Ends world fun result final => result = .ok rows ∧ final = after)
    (inTime : evaluation.engine.deadline.timeout? after.now = none) :
    (evaluation.rowsOf placed resolver retries attempt).Ends world fun result final =>
      result = .ok rows ∧ final = after := by
  have called : (evaluation.call placed resolver attempt).Ends world fun result final =>
      result = .ok (.ok rows) ∧ final = after := by
    rw [call]
    simp only [Action.bind_ends, Deadline.check_ends, Action.record_ends, Action.attempt_ends, early]
    refine Action.ends_weaken resolved fun result final known => ?_
    obtain ⟨rfl, rfl⟩ := known
    simp only [inTime]
    exact ⟨rfl, rfl⟩
  cases retries with
  | zero =>
      rw [rowsOf, Action.bind_ends]
      refine Action.ends_weaken called fun result final known => ?_
      obtain ⟨rfl, rfl⟩ := known
      exact evaluation.accept_ends placed attempt rows _
  | succ retries =>
      rw [rowsOf, Action.bind_ends]
      refine Action.ends_weaken called fun result final known => ?_
      obtain ⟨rfl, rfl⟩ := known
      exact evaluation.accept_ends placed attempt rows _

theorem resolve_all_answered (evaluation : Evaluation σ) (leaves : List PlacedLeaf) (world : World σ)
    (results : List Stored) (answered : evaluation.Answered leaves world results) :
    (evaluation.resolveAll leaves).Ends world fun result _ => result = .ok results := by
  induction answered with
  | nothing world => exact rfl
  | answer placed rest filter world after rows others registered early resolved inTime later ih =>
      have first : (evaluation.resolve placed).Ends world fun result final => result = .ok rows ∧ final = after := by
        rw [resolve, Action.bind_ends, Action.of_except_ends, registered]
        exact evaluation.rows_of_answered placed filter.resolver _ 0 world after rows early resolved inTime
      rw [resolveAll, Action.bind_ends]
      refine Action.ends_weaken first fun result final known => ?_
      obtain ⟨rfl, rfl⟩ := known
      simp only [Action.bind_ends]
      refine Action.ends_weaken ih fun result final known => ?_
      subst known
      rfl

theorem evaluate_node_answered (evaluation : Evaluation σ) (node : Node) (base : Path) (world : World σ)
    (allowed : evaluation.engine.config.missingFilter = .skip ∨
      ∀ placed ∈ node.placedLeaves base, evaluation.knows placed = true)
    (results : List Stored)
    (answered : evaluation.Answered ((node.placedLeaves base).filter evaluation.knows) world results) :
    (evaluation.evaluateNode node base).Ends world fun result _ =>
      ∃ store, result = .ok store ∧ store.Records results := by
  have same := evaluation.answered_paths _ _ _ answered
  obtain ⟨store, filled, holds⟩ := fill_chosen node base _ List.filter_sublist results same
  rw [evaluateNode]
  refine Action.on_failure_ends _ _ _ _ evaluation.fault_quiet ?_
  rw [storeLeaves, count, trace]
  simp only [Action.bind_ends, Action.count_ends, Action.record_ends]
  refine Action.ends_weaken (evaluation.choose_ends (node.placedLeaves base) world) fun result after known => ?_
  obtain ⟨_, rfl, _, chosen⟩ := known
  rw [chosen allowed]
  refine Action.ends_weaken (evaluation.resolve_all_answered _ _ results answered) fun result final resolved => ?_
  rw [resolved]
  simp only [Action.of_except_ends, filled]
  exact ⟨store, rfl, holds⟩

end Evaluation

end FilterPlan
