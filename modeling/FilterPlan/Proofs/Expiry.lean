import FilterPlan.Proofs.Timely
import FilterPlan.Proofs.Trials

set_option autoImplicit false

namespace FilterPlan

-- Events that neither have to do with the resolver of a leaf nor tell of a lack of time.
def Event.Idle : Event → Prop
  | .resolverCalled _ _ _ _ | .resolverReturned _ _ | .counted (.leafResolved _) | .traced _ (.leafResolved _ _ _ _)
  | .counted .timeout => False
  | _ => True

theorem Event.idle_resolves (event : Event) (idle : event.Idle) : ¬ event.Resolves := by
  cases event with
  | counted metric => cases metric <;> simp_all [Idle, Resolves]
  | traced fingerprint note => cases note <;> simp_all [Idle, Resolves]
  | _ => simp_all [Idle, Resolves]

theorem Event.idle_lacks (event : Event) (idle : event.Idle) : event ≠ .counted .timeout := by
  rintro rfl
  exact idle

def Journal.Standing (deadline : Deadline) (now : Nat) (journal : Journal) : Prop :=
  ∀ entry ∈ journal, entry.site.deadline = deadline ∧ entry.time = now ∧ entry.event.Idle

namespace Deadline

variable (deadline : Deadline)

theorem allows_idle (entry : Entry) (covered : deadline.Covers entry.site.deadline) (idle : entry.event.Idle) :
    deadline.Allows entry :=
  ⟨covered, fun works => absurd works (entry.event.idle_resolves idle),
    fun lacks => absurd lacks (entry.event.idle_lacks idle)⟩

theorem decides_late {α : Type} (now : Nat) (error : EvaluateError) (expired : deadline.Expired now)
    (late : deadline.Late error) : deadline.Decides now (.error error : Except EvaluateError α) :=
  ⟨fun _ => ⟨error, rfl, late⟩, fun inTime => absurd expired inTime⟩

theorem decides_in_time {α : Type} (now : Nat) (result : Except EvaluateError α) (inTime : ¬ deadline.Expired now)
    (other : ∀ error, result = .error error → error.isTimeout = false) : deadline.Decides now result :=
  ⟨fun expired => absurd expired inTime, fun _ => other⟩

theorem decided_ok {α : Type} (now : Nat) (value : α) (decides : deadline.Decides now (.ok value)) :
    ¬ deadline.Expired now := by
  intro expired
  obtain ⟨error, failed, _⟩ := decides.late expired
  cases failed

theorem decided_error {α β : Type} (now : Nat) (error : EvaluateError)
    (decides : deadline.Decides now (.error error : Except EvaluateError α)) :
    deadline.Decides now (.error error : Except EvaluateError β) := by
  constructor
  · intro expired
    obtain ⟨other, same, late⟩ := decides.late expired
    exact ⟨other, by rw [Except.error.inj same], late⟩
  · intro inTime other same
    rw [← Except.error.inj same]
    exact decides.inTime inTime error rfl

theorem decided_timeout {α : Type} (now : Nat) (error : EvaluateError)
    (decides : deadline.Decides now (.error error : Except EvaluateError α)) (isTimeout : error.isTimeout = true) :
    deadline.Expired now ∧ deadline.Late error := by
  by_cases expired : deadline.Expired now
  · obtain ⟨other, same, late⟩ := decides.late expired
    rw [Except.error.inj same]
    exact ⟨expired, late⟩
  · rw [decides.inTime expired error rfl] at isTimeout
    cases isTimeout

theorem check_heeds {σ : Type} (other : Deadline) (world : World σ) (post : Except EvaluateError Unit → World σ → Prop)
    (inTime : ¬ deadline.Expired world.now → post (.ok ()) world)
    (late : deadline.Expired world.now → ∀ error, deadline.Late error → post (.error error) world) :
    (deadline.check : Action σ EvaluateError Unit).Heeds other world post := by
  apply Action.still_heeds
  rw [Action.Does, check]
  by_cases expired : deadline.Expired world.now
  · obtain ⟨error, isError, isLate⟩ := deadline.timeout_expired world.now expired
    rw [isError]
    exact ⟨rfl, rfl, late expired error isLate⟩
  · rw [deadline.timeout_in_time world.now expired]
    exact ⟨rfl, rfl, inTime expired⟩

end Deadline

namespace Journal

theorem standing_nothing (deadline : Deadline) (now : Nat) : Standing deadline now [] := by simp [Standing]

theorem standing_append (deadline : Deadline) (now : Nat) (before after : Journal) (first : before.Standing deadline now)
    (second : after.Standing deadline now) : (before ++ after).Standing deadline now :=
  fun entry inside => (List.mem_append.mp inside).elim (first entry) (second entry)

theorem standing_entry (site : Site) (now : Nat) (event : Event) (idle : event.Idle) :
    Standing site.deadline now [⟨site, now, event⟩] := by
  simpa [Standing] using idle

theorem standing_timely (deadline : Deadline) (now : Nat) (journal : Journal) (standing : journal.Standing deadline now) :
    Timely deadline now now journal := by
  induction journal with
  | nil => exact timely_nothing deadline _ _ (Nat.le_refl _)
  | cons entry rest ih =>
      obtain ⟨isDeadline, isNow, idle⟩ := standing entry List.mem_cons_self
      have covered : deadline.Covers entry.site.deadline := isDeadline ▸ deadline.covers_refl
      have first := timely_entry deadline now entry isNow (deadline.allows_idle entry covered idle)
      exact timely_append deadline _ _ _ [entry] rest first
        (ih fun other inside => standing other (List.mem_cons_of_mem _ inside))

end Journal

namespace Action

variable {σ α β : Type} (deadline : Deadline)

def Decided (action : Action σ EvaluateError α) (world : World σ) : Prop :=
  action.Heeds deadline world fun result after => deadline.Decides after.now result

theorem bind_decided (first : Action σ EvaluateError α) (next : α → Action σ EvaluateError β) (world : World σ)
    (decided : first.Decided deadline world)
    (later : ∀ value after, ¬ deadline.Expired after.now → (next value).Decided deadline after) :
    (first >>= next).Decided deadline world := by
  apply bind_heeds
  apply heeds_weaken deadline decided
  intro result after decides
  cases result with
  | error error => exact deadline.decided_error _ _ decides
  | ok value => exact later value after (deadline.decided_ok _ _ decides)

theorem record_decided (site : Site) (event : Event) (world : World σ) (here : site.deadline = deadline)
    (inTime : ¬ deadline.Expired world.now) (noLack : event ≠ .counted .timeout) :
    (record site event).Decided deadline world := by
  subst here
  exact record_heeds site.deadline _ _ _ _
    ⟨site.deadline.covers_refl, fun _ => inTime, fun lacks => absurd lacks noLack⟩
    (site.deadline.decides_in_time _ _ inTime (by simp))

theorem pure_decided (value : α) (world : World σ) (inTime : ¬ deadline.Expired world.now) :
    (pure value : Action σ EvaluateError α).Decided deadline world :=
  pure_heeds deadline _ _ _ (deadline.decides_in_time _ _ inTime (by simp))

theorem fail_decided (error : EvaluateError) (world : World σ) (inTime : ¬ deadline.Expired world.now)
    (other : error.isTimeout = false) : (fail error : Action σ EvaluateError α).Decided deadline world :=
  fail_heeds deadline _ _ _ (deadline.decides_in_time _ _ inTime fun failure failed => by
    rwa [← Except.error.inj failed])

theorem check_decided (world : World σ) : (deadline.check : Action σ EvaluateError Unit).Decided deadline world := by
  apply Deadline.check_heeds
  · exact fun inTime => deadline.decides_in_time _ _ inTime (by simp)
  · exact fun expired error late => deadline.decides_late _ _ expired late

end Action

namespace Engine

variable {σ : Type}

structure Reaches (engine : Engine σ) (scope : Scope σ) : Prop where
  asked : ∀ name question world, (scope.nested name question).Heeds engine.deadline world fun _ _ => True
  entered : ∀ call world, (scope.fresh call).Heeds engine.deadline world fun _ _ => True

def Punctual (engine : Engine σ) : Prop := ∀ scope, engine.scope = some scope → engine.Reaches scope

theorem ask_heeds (engine : Engine σ) (punctual : engine.Punctual) (name question : String) (world : World σ) :
    (engine.serve.ask name question).Heeds engine.deadline world fun _ _ => True := by
  rw [serve]
  cases inScope : engine.scope with
  | none => exact Action.fail_heeds _ _ _ _ trivial
  | some scope => exact Action.map_error_heeds _ _ _ _ _ ((punctual scope inScope).asked name question world)

theorem enter_heeds (engine : Engine σ) (punctual : engine.Punctual) (call : Call) (world : World σ) :
    (engine.serve.enter call).Heeds engine.deadline world fun _ _ => True := by
  rw [serve]
  cases inScope : engine.scope with
  | none => exact Action.done_heeds _ _ _ _ trivial
  | some scope =>
      change (scope.fresh call >>= _).Heeds engine.deadline world _
      apply Action.bind_heeds
      apply Action.heeds_weaken _ ((punctual scope inScope).entered call world)
      intro result after _
      cases result with
      | error error => trivial
      | ok reply => exact Action.done_heeds _ _ _ _ trivial

theorem perform_heeds (engine : Engine σ) (punctual : engine.Punctual) (resolution : Resolution σ) (world : World σ) :
    (resolution.perform engine.serve).Heeds engine.deadline world fun _ _ => True := by
  induction resolution generalizing world with
  | done outcome => exact Action.of_except_heeds _ _ _ _ trivial
  | look next ih => exact ih world.state world
  | change state next ih => exact ih ⟨state, world.now⟩
  | wait time next ih =>
      intro begun
      obtain ⟨timely, _⟩ := ih ⟨world.state, world.now + time⟩ (Nat.le_trans begun (Nat.le_add_right _ _))
      have waits := Journal.timely_nothing engine.deadline world.now (world.now + time) (Nat.le_add_right _ _)
      exact ⟨Journal.timely_append engine.deadline _ _ _ [] _ waits timely, trivial⟩
  | ask name question next ih =>
      change ((engine.serve.ask name question).attempt >>= _).Heeds engine.deadline world _
      apply Action.bind_heeds
      apply Action.attempt_heeds
      apply Action.heeds_weaken _ (engine.ask_heeds punctual name question world)
      exact fun outcome after _ => ih outcome after
  | enter call next ih =>
      change (engine.serve.enter call >>= _).Heeds engine.deadline world _
      apply Action.bind_heeds
      apply Action.heeds_weaken _ (engine.enter_heeds punctual call world)
      intro result after _
      cases result with
      | error error => trivial
      | ok reply => exact ih reply after

end Engine

namespace Evaluation

variable {σ : Type} (evaluation : Evaluation σ)

theorem accept_decided (placed : PlacedLeaf) (attempt : Nat) (rows : IdentitySet) (world : World σ)
    (inTime : ¬ evaluation.engine.deadline.Expired world.now) :
    (evaluation.accept placed attempt rows).Decided evaluation.engine.deadline world := by
  rw [accept]
  apply Action.bind_decided
  · exact Action.record_decided _ _ _ _ rfl inTime (by simp)
  · intro _ counted inTime
    apply Action.bind_decided
    · exact Action.record_decided _ _ _ _ rfl inTime (by simp)
    · exact fun _ traced inTime => Action.pure_decided _ _ _ inTime

theorem give_up_decided (placed : PlacedLeaf) (attempt : Nat) (source : ResolverError) (world : World σ)
    (inTime : ¬ evaluation.engine.deadline.Expired world.now) :
    (evaluation.giveUp placed attempt source).Decided evaluation.engine.deadline world := by
  rw [giveUp]
  apply Action.bind_decided
  · exact Action.record_decided _ _ _ _ rfl inTime (by simp)
  · exact fun _ counted inTime => Action.fail_decided _ _ _ inTime rfl

section Punctual

variable (punctual : evaluation.engine.Punctual)
include punctual

theorem call_decided (placed : PlacedLeaf) (resolver : Resolver σ) (attempt : Nat) (world : World σ) :
    (evaluation.call placed resolver attempt).Decided evaluation.engine.deadline world := by
  rw [call]
  apply Action.bind_decided
  · exact Action.check_decided _ _
  · intro _ started inTime
    apply Action.bind_decided
    · exact Action.record_decided _ _ _ _ rfl inTime (by simp)
    · intro _ called _
      -- The resolver takes its time, so nothing is known of the clock until the second check.
      apply Action.bind_heeds
      apply Action.attempt_heeds
      apply Action.heeds_weaken _ (evaluation.engine.perform_heeds punctual _ called)
      intro outcome after _
      apply Action.bind_heeds
      apply Action.record_heeds
      · exact ⟨Deadline.covers_refl _, fun works => works.elim, fun lacks => by cases lacks⟩
      · apply Action.bind_decided
        · exact Action.check_decided _ _
        · exact fun _ checked inTime => Action.pure_decided _ _ _ inTime

theorem rows_of_decided (placed : PlacedLeaf) (resolver : Resolver σ) (retries attempt : Nat) (world : World σ) :
    (evaluation.rowsOf placed resolver retries attempt).Decided evaluation.engine.deadline world := by
  induction retries generalizing attempt world with
  | zero =>
      rw [rowsOf]
      apply Action.bind_decided _ _ _ _ (evaluation.call_decided punctual placed resolver attempt world)
      intro outcome after inTime
      cases outcome with
      | ok rows => exact evaluation.accept_decided placed attempt rows after inTime
      | error source => exact evaluation.give_up_decided placed attempt source after inTime
  | succ retries ih =>
      rw [rowsOf]
      apply Action.bind_decided _ _ _ _ (evaluation.call_decided punctual placed resolver attempt world)
      intro outcome after inTime
      cases outcome with
      | ok rows => exact evaluation.accept_decided placed attempt rows after inTime
      | error source =>
          by_cases passing : source.isTransient
          · simp only [if_pos passing]
            apply Action.bind_decided
            · exact Action.record_decided _ _ _ _ rfl inTime (by simp)
            · exact fun _ counted _ => ih (attempt + 1) counted
          · simp only [if_neg passing]
            exact evaluation.give_up_decided placed attempt source after inTime

theorem resolve_decided (placed : PlacedLeaf) (known : evaluation.knows placed = true) (world : World σ) :
    (evaluation.resolve placed).Decided evaluation.engine.deadline world := by
  obtain ⟨filter, registered⟩ := evaluation.knows_find placed known
  rw [resolve, registered]
  exact evaluation.rows_of_decided punctual placed filter.resolver _ 0 world

theorem resolve_all_decided (placed : PlacedLeaf) (rest : List PlacedLeaf)
    (known : ∀ other ∈ placed :: rest, evaluation.knows other = true) (world : World σ) :
    (evaluation.resolveAll (placed :: rest)).Decided evaluation.engine.deadline world := by
  induction rest generalizing placed world with
  | nil =>
      rw [resolveAll]
      apply Action.bind_decided _ _ _ _ (evaluation.resolve_decided punctual placed (known placed List.mem_cons_self) world)
      exact fun rows after inTime => Action.pure_decided _ _ _ inTime
  | cons next rest ih =>
      rw [resolveAll]
      apply Action.bind_decided _ _ _ _ (evaluation.resolve_decided punctual placed (known placed List.mem_cons_self) world)
      intro rows after _
      apply Action.bind_decided _ _ _ _
        (ih next (fun other inside => known other (List.mem_cons_of_mem _ inside)) after)
      exact fun others final inTime => Action.pure_decided _ _ _ inTime

end Punctual

theorem skip_unknown_stands (leaves : List PlacedLeaf) (world : World σ) :
    (evaluation.skipUnknown leaves : Action σ EvaluateError (List PlacedLeaf)).Does world fun result after journal =>
      result = .ok (leaves.filter evaluation.knows) ∧ after = world ∧
        journal.Standing evaluation.engine.deadline world.now := by
  induction leaves with
  | nil => exact ⟨rfl, rfl, Journal.standing_nothing _ _⟩
  | cons placed rest ih =>
      by_cases known : evaluation.knows placed
      · rw [List.filter_cons_of_pos known]
        rw [knows] at known
        rw [skipUnknown, if_pos known, Action.bind_does]
        apply Action.does_weaken ih
        rintro _ _ journal ⟨rfl, rfl, standing⟩
        simpa using standing
      · rw [List.filter_cons_of_neg known]
        rw [knows] at known
        rw [skipUnknown, if_neg known]
        simp only [count, trace, Action.bind_does, Action.count_does, Action.record_does]
        apply Action.does_weaken ih
        rintro _ after journal ⟨rfl, rfl, standing⟩
        have counted := Journal.standing_entry evaluation.engine.site after.now (.counted .leafSkipped) trivial
        have traced := Journal.standing_entry evaluation.engine.site after.now (.traced evaluation.fingerprint
          (.leafSkipped placed.path placed.leaf.filter)) trivial
        exact ⟨rfl, rfl, Journal.standing_append _ _ _ _ counted (Journal.standing_append _ _ _ _ traced standing)⟩

-- The plan is let through, be it that unknown filters are skipped or that there are none.
def Admits (leaves : List PlacedLeaf) : Prop :=
  evaluation.engine.config.missingFilter = .skip ∨ evaluation.Knows leaves

theorem choose_admitted (leaves : List PlacedLeaf) (admits : evaluation.Admits leaves) (world : World σ) :
    (evaluation.choose leaves).Does world fun result after journal =>
      result = .ok (leaves.filter evaluation.knows) ∧ after = world ∧
        journal.Standing evaluation.engine.deadline world.now := by
  rcases admits with skips | known
  · rw [choose, skips]
    exact evaluation.skip_unknown_stands leaves world
  · have all : leaves.filter evaluation.knows = leaves := List.filter_eq_self.mpr known
    rw [evaluation.choose_known leaves known, all]
    exact ⟨rfl, rfl, Journal.standing_nothing _ _⟩

theorem refused_missing (leaves : List PlacedLeaf) (refused : ¬ evaluation.Admits leaves) :
    evaluation.engine.config.missingFilter = .reject ∧
      ∃ missing, (leaves.find? fun placed => !evaluation.registry.contains placed.leaf.filter) = some missing := by
  rw [Admits, not_or] at refused
  obtain ⟨intolerant, unknown⟩ := refused
  constructor
  · cases policy : evaluation.engine.config.missingFilter with
    | skip => exact absurd policy intolerant
    | reject => rfl
  · apply Option.isSome_iff_exists.mp
    rw [List.find?_isSome]
    by_contra none
    exact unknown fun placed inside => by simpa using fun missing => none ⟨placed, inside, missing⟩

theorem choose_stands (leaves : List PlacedLeaf) (world : World σ) :
    (evaluation.choose leaves).Does world fun result after journal =>
      after = world ∧ journal.Standing evaluation.engine.deadline world.now ∧
        (evaluation.Admits leaves → result = .ok (leaves.filter evaluation.knows)) ∧
        (¬ evaluation.Admits leaves → ∃ error, result = .error (.registry error)) := by
  by_cases admits : evaluation.Admits leaves
  · apply Action.does_weaken (evaluation.choose_admitted leaves admits world)
    rintro result after journal ⟨chosen, same, standing⟩
    exact ⟨same, standing, fun _ => chosen, fun refused => absurd admits refused⟩
  · obtain ⟨rejects, missing, found⟩ := evaluation.refused_missing leaves admits
    rw [choose, rejects]
    dsimp only
    rw [found]
    exact ⟨rfl, Journal.standing_nothing _ _, fun admitted => absurd admitted admits, fun _ => ⟨_, rfl⟩⟩

def Attends (leaves : List PlacedLeaf) : Prop := evaluation.Admits leaves ∧ leaves.filter evaluation.knows ≠ []

theorem fill_timeless (results : List Stored) (store : Store) (error : EvaluateError)
    (failed : fill results store = .error error) : error.isTimeout = false := by
  fun_induction fill results store with
  | case1 => cases failed
  | case2 path rows rest store next inserted ih => exact ih failed
  | case3 path rows rest store next refused =>
      rw [← Except.error.inj failed]
      rfl

theorem store_leaves_decided (punctual : evaluation.engine.Punctual) (leaves : List PlacedLeaf)
    (attends : evaluation.Attends leaves) (world : World σ) :
    (evaluation.storeLeaves leaves).Decided evaluation.engine.deadline world := by
  obtain ⟨placed, rest, isKnown⟩ := List.exists_cons_of_ne_nil attends.2
  have known : ∀ other ∈ placed :: rest, evaluation.knows other = true :=
    isKnown ▸ fun other inside => (List.mem_filter.mp inside).2
  rw [storeLeaves]
  apply Action.bind_heeds
  apply Action.record_heeds
  · exact Deadline.allows_idle _ _ (Deadline.covers_refl _) trivial
  apply Action.bind_heeds
  apply Action.record_heeds
  · exact Deadline.allows_idle _ _ (Deadline.covers_refl _) trivial
  apply Action.bind_heeds
  intro begun
  apply Action.does_weaken (evaluation.choose_admitted leaves attends.1 world)
  rintro _ after journal ⟨rfl, rfl, standing⟩
  refine ⟨Journal.standing_timely _ _ _ standing, ?_⟩
  rw [isKnown]
  apply Action.bind_decided _ _ _ _ (evaluation.resolve_all_decided punctual placed rest known _)
  intro results final inTime
  apply Action.of_except_heeds
  exact Deadline.decides_in_time _ _ _ inTime (fill_timeless results .empty)

theorem store_leaves_stands (leaves : List PlacedLeaf) (idle : ¬ evaluation.Attends leaves) (world : World σ) :
    (evaluation.storeLeaves leaves).Does world fun result after journal =>
      after = world ∧ journal.Standing evaluation.engine.deadline world.now ∧
        ∀ error, result = .error error → error.isTimeout = false := by
  have counted := Journal.standing_entry evaluation.engine.site world.now
    (.counted (.planEvaluated leaves.length false)) trivial
  have traced := Journal.standing_entry evaluation.engine.site world.now
    (.traced evaluation.fingerprint (.planStart leaves.length evaluation.engine.depth)) trivial
  have opens (journal : Journal) (standing : journal.Standing evaluation.engine.deadline world.now) :=
    Journal.standing_append _ _ _ _ counted (Journal.standing_append _ _ _ _ traced standing)
  rw [storeLeaves]
  simp only [count, trace, Action.bind_does, Action.count_does, Action.record_does]
  apply Action.does_weaken (evaluation.choose_stands leaves world)
  rintro result after journal ⟨rfl, standing, admitted, refused⟩
  by_cases admits : evaluation.Admits leaves
  · have nothing : leaves.filter evaluation.knows = [] := by
      by_contra some
      exact idle ⟨admits, some⟩
    rw [admitted admits, nothing]
    exact ⟨rfl, opens (journal ++ []) (by rwa [List.append_nil]), fill_timeless [] .empty⟩
  · obtain ⟨error, isError⟩ := refused admits
    rw [isError]
    refine ⟨rfl, opens journal standing, ?_⟩
    intro other same
    rw [← Except.error.inj same]
    rfl

theorem fault_heeds (error : EvaluateError) (world : World σ)
    (decides : evaluation.engine.deadline.Decides world.now (.error error : Except EvaluateError Store)) :
    (evaluation.fault error).Heeds evaluation.engine.deadline world fun result after =>
      result = .ok () ∧ after = world := by
  have traces : (evaluation.trace (.error error.failureClass .evaluate) : Action σ EvaluateError Unit).Heeds
      evaluation.engine.deadline world fun result after => result = .ok () ∧ after = world :=
    Action.record_heeds _ _ _ _ _ (Deadline.allows_idle _ _ (Deadline.covers_refl _) trivial) ⟨rfl, rfl⟩
  rw [fault]
  by_cases late : error.isTimeout
  · rw [if_pos late]
    apply Action.bind_heeds
    apply Action.record_heeds
    · exact ⟨Deadline.covers_refl _, fun works => works.elim,
        fun _ => (Deadline.decided_timeout _ _ error decides late).1⟩
    · exact traces
  · rw [if_neg late]
    exact traces

theorem evaluate_node_decided (punctual : evaluation.engine.Punctual) (node : Node) (base : Path)
    (attends : evaluation.Attends (node.placedLeaves base)) (world : World σ) :
    (evaluation.evaluateNode node base).Decided evaluation.engine.deadline world := by
  rw [evaluateNode]
  apply Action.on_failure_heeds
  apply Action.heeds_weaken _ (evaluation.store_leaves_decided punctual _ attends world)
  intro result after decides
  cases result with
  | ok store => exact decides
  | error error =>
      apply Action.heeds_weaken _ (evaluation.fault_heeds error after decides)
      rintro response final ⟨answered, rfl⟩
      exact ⟨answered, decides⟩

theorem evaluate_node_stands (node : Node) (base : Path) (idle : ¬ evaluation.Attends (node.placedLeaves base))
    (world : World σ) :
    (evaluation.evaluateNode node base).Does world fun result after journal =>
      after = world ∧ journal.Standing evaluation.engine.deadline world.now ∧
        ∀ error, result = .error error → error.isTimeout = false := by
  rw [evaluateNode]
  apply Action.on_failure_does
  apply Action.does_weaken (evaluation.store_leaves_stands _ idle world)
  rintro result after journal ⟨rfl, standing, timeless⟩
  cases result with
  | ok store => exact ⟨rfl, standing, by simp⟩
  | error error =>
      dsimp only
      rw [fault, timeless error rfl]
      have traced := Journal.standing_entry evaluation.engine.site after.now
        (.traced evaluation.fingerprint (.error error.failureClass .evaluate)) trivial
      exact ⟨rfl, rfl, Journal.standing_append _ _ _ _ standing traced, timeless⟩

theorem evaluate_node_marks (node : Node) (base : Path) :
    (evaluation.evaluateNode node base).Writes fun result journal =>
      ∀ error, result = .error error → error.isTimeout = true →
        ∃ entry ∈ journal, entry.site = evaluation.engine.site ∧ entry.event = .counted .timeout := by
  rw [evaluateNode]
  apply Action.on_failure_writes
  intro world
  generalize (evaluation.storeLeaves (node.placedLeaves base) world).result = result
  cases result with
  | ok store => simp
  | error error =>
      intro after
      rw [fault_outcome]
      refine ⟨rfl, fun other same late => ?_⟩
      refine ⟨⟨evaluation.engine.site, after.now, .counted .timeout⟩, List.mem_append_right _ ?_, rfl, rfl⟩
      have isLate : error.isTimeout = true := by rwa [Except.error.inj same]
      simp [faultMarks, isLate]

def Resolves : Prop := evaluation.Attends evaluation.places

structure Heeded (world : World σ) (outcome : Outcome σ EvaluateError Store) : Prop where
  timely : Journal.Timely evaluation.engine.deadline world.now outcome.world.now outcome.journal
  decides : evaluation.Resolves → evaluation.engine.deadline.Decides outcome.world.now outcome.result
  stands : ¬ evaluation.Resolves → outcome.world = world ∧ outcome.journal.Standing evaluation.engine.deadline world.now ∧
    ∀ error, outcome.result = .error error → error.isTimeout = false
  marks : ∀ error, outcome.result = .error error → error.isTimeout = true →
    ∃ entry ∈ outcome.journal, entry.site = evaluation.engine.site ∧ entry.event = .counted .timeout

theorem evaluate_heeded (punctual : evaluation.engine.Punctual) (world : World σ)
    (begun : evaluation.engine.deadline.started ≤ world.now) :
    evaluation.Heeded world (evaluation.evaluate world) := by
  cases planned : evaluation.plan.root with
  | none =>
      have nothing : ¬ evaluation.Resolves := by
        simp [Resolves, Attends, places, Plan.places, planned]
      have isEvaluate : evaluation.evaluate world = ⟨.ok .empty, world,
          [⟨evaluation.engine.site, world.now, .counted (.planEvaluated 0 true)⟩]⟩ := by
        rw [evaluate, planned]
        rfl
      have standing := Journal.standing_entry evaluation.engine.site world.now (.counted (.planEvaluated 0 true))
        trivial
      rw [isEvaluate]
      exact ⟨Journal.standing_timely _ _ _ standing, fun resolves => absurd resolves nothing,
        fun _ => ⟨rfl, standing, by simp⟩, by simp⟩
  | some root =>
      have isPlaces : evaluation.places = root.placedLeaves [] := evaluation.plan.places_root root planned
      have marks := evaluation.evaluate_node_marks root [] world
      rw [evaluation.evaluate_root root planned]
      by_cases resolves : evaluation.Resolves
      · have attends : evaluation.Attends (root.placedLeaves []) := isPlaces ▸ resolves
        have decided := evaluation.evaluate_node_decided punctual root [] attends world begun
        exact ⟨decided.1, fun _ => decided.2, fun idle => absurd resolves idle, marks⟩
      · have idle : ¬ evaluation.Attends (root.placedLeaves []) := isPlaces ▸ resolves
        obtain ⟨same, standing, timeless⟩ := evaluation.evaluate_node_stands root [] idle world
        refine ⟨?_, fun attends => absurd attends resolves, fun _ => ⟨same, standing, timeless⟩, marks⟩
        rw [same]
        exact Journal.standing_timely _ _ _ standing

end Evaluation

end FilterPlan
