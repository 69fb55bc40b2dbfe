import FilterPlan.Proofs.Action
import FilterPlan.Proofs.NameIndex

set_option autoImplicit false

namespace FilterPlan

def Classifier.after {σ : Type} (classify : Classifier σ) (question : String) (names : List String) (world : World σ) :
    World σ :=
  let reply := classify question names world.state
  ⟨reply.state, world.now + reply.elapsed⟩

def Outcome.answered {σ : Type} (name : String) (outcome : Outcome σ PipelineError IdentitySet) :
    Outcome σ PipelineError Answer :=
  ⟨outcome.result.map (Answer.mk name), outcome.world, outcome.journal⟩

namespace Manager

variable {σ : Type}

section Chosen

variable (manager : Manager σ) (classify : Classifier σ) (isClassifier : manager.classifier = some classify)
  (question : String) (world : World σ) (choice : String)
  (chosen : (classify question manager.names world.state).answer = .ok choice)
include isClassifier chosen

theorem select_chosen :
    manager.select question world =
      (match manager.find (Text.trim choice) with
        | .ok pipeline => ⟨.ok pipeline, classify.after question manager.names world, []⟩
        | .error _ => ⟨.error (.unknownSelection (Text.trim choice) manager.names),
            classify.after question manager.names world, []⟩) := by
  have consulted : ((Action.consult (classify question manager.names)).bind Action.ofExcept |>.mapError
      PipelineError.selection : Action σ PipelineError String) world =
        ⟨.ok choice, classify.after question manager.names world, []⟩ := by
    simp only [Action.mapError, Action.bind, Action.consult, Action.ofExcept, chosen]
    rfl
  rw [select, isClassifier]
  dsimp only
  rw [Action.bind_after consulted]
  cases manager.find (Text.trim choice) <;> rfl

theorem select_known (pipeline : Pipeline σ) (found : manager.find (Text.trim choice) = .ok pipeline) :
    manager.select question world = ⟨.ok pipeline, classify.after question manager.names world, []⟩ := by
  rw [manager.select_chosen classify isClassifier question world choice chosen, found]

theorem select_unknown (unknown : Text.trim choice ∉ manager.names) :
    manager.select question world = ⟨.error (.unknownSelection (Text.trim choice) manager.names),
      classify.after question manager.names world, []⟩ := by
  rw [manager.select_chosen classify isClassifier question world choice chosen]
  cases found : manager.find (Text.trim choice) with
  | ok pipeline => exact absurd ((manager.find_reached _).mp ⟨pipeline, found⟩) unknown
  | error error => rfl

end Chosen

theorem answer_selected (manager : Manager σ) (question : String) (world after : World σ) (pipeline : Pipeline σ)
    (selected : manager.select question world = ⟨.ok pipeline, after, []⟩) :
    manager.answer question world = (manager.run pipeline.name question after).answered pipeline.name := by
  rw [answer_selects, Action.bind_after selected]
  have unfolded : (manager.run pipeline.name question >>= fun rows => pure (Answer.mk pipeline.name rows) :
      Action σ PipelineError Answer) after = (manager.run pipeline.name question after).answered pipeline.name := by
    rcases isRun : manager.run pipeline.name question after with ⟨_ | rows, final, journal⟩
    · rw [Action.bind_failed isRun]
      rfl
    · rw [Action.bind_after isRun, Outcome.answered]
      simp [pure, Action.done, Except.map]
  rw [unfolded]
  rfl

theorem answer_unselected (manager : Manager σ) (question : String) (world after : World σ) (error : PipelineError)
    (unselected : manager.select question world = ⟨.error error, after, []⟩) :
    manager.answer question world = ⟨.error error, after, []⟩ := by
  rw [answer_selects, Action.bind_failed unselected]

-- A classifier chooses among the names in the order in which they were added, and what counts is its choice without
-- the blanks around it. So a name that it gives back unchanged selects the pipeline of that name if and only if no
-- blank is at either end of the name.
theorem choice_read_trimmed (config : Config) (classify : Classifier σ) (calls : List (String × Pipeline σ))
    (question : String) (world : World σ) (choice : String)
    (chosen : (classify question (ofCalls config (some classify) calls).names world.state).answer = .ok choice) :
    let manager := ofCalls config (some classify) calls
    let after := classify.after question manager.names world
    let name := Text.trim choice
    manager.names = (calls.map Prod.fst).eraseDups ∧
      (name ∈ manager.names → ∃ call, calls.find? (fun call => call.1 = name) = some call ∧
        manager.select question world = ⟨.ok { call.2 with name }, after, []⟩ ∧
        manager.answer question world = (manager.run name question after).answered name) ∧
      (name ∉ manager.names →
        manager.select question world = ⟨.error (.unknownSelection name manager.names), after, []⟩ ∧
        manager.answer question world = ⟨.error (.unknownSelection name manager.names), after, []⟩) ∧
      (choice ∈ manager.names →
        ((∃ pipeline, (manager.select question world).result = .ok pipeline ∧ pipeline.name = choice) ↔
          name = choice)) := by
  have indexed := calls_indexed config (some classify) calls
  generalize ofCalls config (some classify) calls = manager at chosen indexed ⊢
  intro _ after name
  dsimp only
  have selects : ∀ pipeline, manager.find name = .ok pipeline →
      manager.select question world = ⟨.ok pipeline, after, []⟩ :=
    manager.select_known classify indexed.sameClassifier question world choice chosen
  have refuses : name ∉ manager.names →
      manager.select question world = ⟨.error (.unknownSelection name manager.names), after, []⟩ :=
    manager.select_unknown classify indexed.sameClassifier question world choice chosen
  refine ⟨indexed.ordered, fun known => ?_, fun unknown => ?_, fun offered => ⟨?_, fun trimmed => ?_⟩⟩
  · obtain ⟨pipeline, found⟩ := (indexed.reached name).mpr known
    have isFound := indexed.found name
    cases first : calls.find? fun call => call.1 = name with
    | none => simp [first, found] at isFound
    | some call =>
        rw [first] at isFound
        have selected := selects _ isFound
        have answered := manager.answer_selected question world after _ selected
        exact ⟨call, rfl, selected, answered⟩
  · exact ⟨refuses unknown, manager.answer_unselected question world after _ (refuses unknown)⟩
  · rintro ⟨pipeline, selected, called⟩
    by_cases known : name ∈ manager.names
    · obtain ⟨other, found⟩ := (indexed.reached name).mpr known
      rw [selects other found] at selected
      have same : other = pipeline := Except.ok.inj selected
      rw [← called, ← same]
      exact (indexed.called name other found).symm
    · rw [refuses known] at selected
      cases selected
  · obtain ⟨pipeline, found⟩ := (indexed.reached name).mpr (trimmed ▸ offered)
    exact ⟨pipeline, by rw [selects pipeline found], (indexed.called name pipeline found).trans trimmed⟩

def shelved (goal : String) : Pipeline Nat :=
  ⟨Pipeline.unnamed, goal, .empty, .empty, fun _ state => ⟨.ok .unfiltered, state, 0⟩, none⟩

def shelf : List (String × Pipeline Nat) :=
  [("component", shelved "components"), ("package", shelved "packages"), ("component", shelved "others")]

def lastOffered : Classifier Nat := fun _ names state => ⟨.ok (names.getLastD ""), state + 1, 7⟩

theorem shelf_names : (ofCalls .default (some lastOffered) shelf).names = ["component", "package"] :=
  (calls_indexed .default (some lastOffered) shelf).ordered

theorem choice_read_trimmed_last :
    let manager := ofCalls .default (some lastOffered) shelf
    (lastOffered "q" manager.names 0).answer = .ok "package" ∧ "package" ∈ manager.names ∧
      manager.select "q" ⟨0, 0⟩ = ⟨.ok { shelved "packages" with name := "package" }, ⟨1, 7⟩, []⟩ ∧
      manager.answer "q" ⟨0, 0⟩ = (manager.run "package" "q" ⟨1, 7⟩).answered "package" := by
  have chosen : (lastOffered "q" (ofCalls .default (some lastOffered) shelf).names 0).answer = .ok "package" := by
    rw [shelf_names]
    rfl
  have offered : "package" ∈ (ofCalls .default (some lastOffered) shelf).names := by
    rw [shelf_names]
    decide
  have trimmed : Text.trim "package" = "package" := by decide
  obtain ⟨_, known, _, _⟩ := choice_read_trimmed .default lastOffered shelf "q" ⟨0, 0⟩ "package" chosen
  rw [trimmed] at known
  obtain ⟨call, first, selected, answered⟩ := known offered
  obtain rfl : ("package", shelved "packages") = call := Option.some.inj first
  exact ⟨chosen, offered, selected, answered⟩

def firstOffered : Classifier Nat := fun _ names state => ⟨.ok (names.headD ""), state, 0⟩

def paddedShelf : List (String × Pipeline Nat) := [(" p", shelved "padded")]

def doubledShelf : List (String × Pipeline Nat) := [(" p", shelved "padded"), ("p", shelved "bare")]

theorem padded_choice_lost :
    let alone := ofCalls .default (some firstOffered) paddedShelf
    let beside := ofCalls .default (some firstOffered) doubledShelf
    (firstOffered "q" alone.names 0).answer = .ok " p" ∧ alone.names = [" p"] ∧
      (alone.select "q" ⟨0, 0⟩).result = .error (.unknownSelection "p" [" p"]) ∧
      (firstOffered "q" beside.names 0).answer = .ok " p" ∧ beside.names = [" p", "p"] ∧
      (beside.select "q" ⟨0, 0⟩).result = .ok { shelved "bare" with name := "p" } := by
  have trimmed : Text.trim " p" = "p" := by decide
  have alone := calls_indexed .default (some firstOffered) paddedShelf
  have beside := calls_indexed .default (some firstOffered) doubledShelf
  generalize ofCalls .default (some firstOffered) paddedShelf = manager at alone ⊢
  generalize ofCalls .default (some firstOffered) doubledShelf = other at beside ⊢
  have isAlone : manager.names = [" p"] := alone.ordered
  have areBeside : other.names = [" p", "p"] := beside.ordered
  have choseAlone : (firstOffered "q" manager.names 0).answer = .ok " p" := by
    rw [isAlone]
    rfl
  have choseBeside : (firstOffered "q" other.names 0).answer = .ok " p" := by
    rw [areBeside]
    rfl
  refine ⟨choseAlone, isAlone, ?_, choseBeside, areBeside, ?_⟩
  · have refused := manager.select_unknown firstOffered alone.sameClassifier "q" ⟨0, 0⟩ " p" choseAlone
    rw [trimmed, isAlone] at refused
    rw [refused (by decide)]
  · have found := beside.found "p"
    rw [← trimmed] at found
    rw [other.select_known firstOffered beside.sameClassifier "q" ⟨0, 0⟩ " p" choseBeside _ found]
    rfl

end Manager

end FilterPlan
