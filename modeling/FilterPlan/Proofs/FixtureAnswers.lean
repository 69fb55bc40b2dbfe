import FilterPlan.CommandLine
import FilterPlan.Proofs.Environment
import FilterPlan.Proofs.FixtureTable
import FilterPlan.Proofs.LoneLeaf
import FilterPlan.Proofs.NameIndex
import FilterPlan.Proofs.PlanDocument

set_option autoImplicit false

namespace FilterPlan

namespace Manager

variable {σ : Type}

theorem of_config_valid (config : Config) (classifier : Option (Classifier σ)) (valid : config.validate = .ok ()) :
    ofConfig config classifier = .ok (bare config classifier) := by
  have pooled : ∃ threads, config.poolThreads = .ok threads := by
    rw [Config.poolThreads, valid]
    change ∃ threads, (if config.workers = 1 then _ else _) = Except.ok threads
    split_ifs <;> exact ⟨_, rfl⟩
  obtain ⟨threads, isPooled⟩ := pooled
  rw [ofConfig, isPooled]

theorem add_first (config : Config) (classifier : Option (Classifier σ)) (name : String) (pipeline : Pipeline σ) :
    ∃ manager, add (bare config classifier) name pipeline = .ok manager ∧ manager.config = config ∧
      manager.find name = .ok { pipeline with name } := by
  have indexed := calls_indexed config classifier [(name, pipeline)]
  have accepted := add_accepted (bare config classifier) name pipeline
    (by simp [names, Catalog.names, bare, Catalog.empty])
  refine ⟨ofCalls config classifier [(name, pipeline)], accepted, indexed.sameConfig, ?_⟩
  rw [indexed.found, List.find?_cons_of_pos (by simp)]

end Manager

theorem Plan.leaf_read (leaf : Leaf) : ofText (ofNode (.leaf leaf)).text = .ok (.ofNode (.leaf leaf)) := by
  have shallow : (ofNode (.leaf leaf)).nesting ≤ nestingLimit := Nat.le_of_ble_eq_true rfl
  rw [ofText, text, Json.read_compact nestingLimit _ (json_numberless _), json_nesting, if_pos shallow]
  exact (of_json_iff _ _).mpr (json_spells _)

namespace Command

theorem read_config_valid (host : Host) (path : Option String) (config : Config)
    (configured : readConfig host path = .ok config) : config.validate = .ok () := by
  cases path with
  | none => exact Config.load_valid none host.environment config configured
  | some path =>
      rw [readConfig] at configured
      cases isRead : host.file path with
      | error reason => simp [isRead] at configured
      | ok document =>
          simp only [isRead] at configured
          exact Config.load_valid (some document) host.environment config configured

theorem manager_readable (config : Config) (valid : config.validate = .ok ()) (fixtures : Fixtures)
    (readable : fixtures.Readable) (plan : Plan) :
    ∃ manager pipeline, managerFor config fixtures plan = .ok manager ∧ manager.config = config ∧
      manager.find pipelineName = .ok pipeline ∧
      ∀ name filter, fixtures.filters.find? name = some filter → Fixtures.Serves pipeline.registry name filter := by
  obtain ⟨registry, registered, serve⟩ := fixtures.readable_registry (σ := Unit) readable
  obtain ⟨domain, parsed, _⟩ := IdentitySet.readable_parse fixtures.domain readable.domain
  let pipeline : Pipeline Unit :=
    ⟨Pipeline.unnamed, goal, registry, domain, fun _ state => ⟨.ok plan, state, 0⟩, none⟩
  obtain ⟨manager, added, sameConfig, found⟩ := Manager.add_first config none pipelineName pipeline
  refine ⟨manager, _, ?_, sameConfig, found, serve⟩
  rw [managerFor, Manager.of_config_valid config none valid, registered, Fixtures.identities, parsed]
  change (Manager.add (.bare config none) pipelineName pipeline).mapError _ = _
  rw [added]
  rfl

/-- The inputs of an evaluation of a plan of one leaf against fixtures: the files are there and can be read, every text
that should name an entity does, and there is no time limit. -/
structure Loads (host : Host) (plan fixtures : String) (config : Option String) (leaf : Leaf) (loaded : Fixtures)
    (settings : Config) : Prop where
  planned : ∃ text, host.file plan = .ok text ∧ Plan.ofText text = .ok (.ofNode (.leaf leaf))
  listed : ∃ text, host.file fixtures = .ok text ∧
    interpret Fixtures.ofJson? (Json.read nestingLimit text) = .ok loaded
  readable : loaded.Readable
  configured : readConfig host config = .ok settings
  unlimited : settings.queryTimeoutMs = none

section Loads

variable (host : Host) (plan fixtures : String) (config : Option String) (leaf : Leaf) (loaded : Fixtures)
  (settings : Config) (loads : Loads host plan fixtures config leaf loaded settings)
include loads

theorem evaluate_loaded (manager : Manager Unit)
    (managed : managerFor settings loaded (.ofNode (.leaf leaf)) = .ok manager) :
    evaluate host plan fixtures config = .ok (manager.execute pipelineName (.ofNode (.leaf leaf)) ⟨(), 0⟩) := by
  obtain ⟨planText, planFile, planned⟩ := loads.planned
  obtain ⟨fixturesText, fixturesFile, listed⟩ := loads.listed
  rw [evaluate, readFile, planFile, readFile, fixturesFile]
  change ((Plan.ofText planText).mapError _ >>= fun plan => _) = _
  rw [planned]
  change (interpret Fixtures.ofJson? (Json.read nestingLimit fixturesText) >>= fun fixtures => _) = _
  rw [listed, loads.configured]
  change (managerFor settings loaded (.ofNode (.leaf leaf)) >>= fun manager => _) = _
  rw [managed]
  rfl

def unanswered (leaf : Leaf) : PipelineError :=
  .evaluate (.resolver leaf.filter (Evaluation.lone leaf).path 1
    (.notApplicable ("no fixture answer for '" ++ leaf.instruction ++ "'")))

theorem evaluate_lone (filter : FixtureFilter) (isFilter : loaded.filters.find? leaf.filter = some filter) :
    ∃ outcome, evaluate host plan fixtures config = .ok outcome ∧
      (∀ rows, outcome.result = .ok rows ↔ filter.Lists (Text.trim leaf.instruction) rows) ∧
      (filter.answers.find? (Text.trim leaf.instruction) = none → outcome.result = .error (unanswered leaf)) := by
  have valid := read_config_valid host config settings loads.configured
  obtain ⟨manager, pipeline, managed, sameConfig, found, serve⟩ :=
    manager_readable settings valid loaded loads.readable (.ofNode (.leaf leaf))
  obtain ⟨table, tabled, registered⟩ := serve leaf.filter filter isFilter
  obtain ⟨other, otherTabled, lists⟩ := filter.readable_table (loads.readable.filters leaf.filter filter isFilter)
  obtain rfl : table = other := Except.ok.inj (tabled.symm.trans otherTabled)
  have executed := fun outcome replies lasting => manager.execute_lone leaf ⟨filter.description, _⟩ outcome replies
    lasting pipelineName pipeline found (sameConfig ▸ loads.unlimited) registered ⟨(), 0⟩
  refine ⟨_, evaluate_loaded host plan fixtures config leaf loaded settings loads manager managed, fun rows => ?_,
    fun unlisted => ?_⟩
  · rw [← lists]
    cases isListed : table.find? (Text.trim leaf.instruction) with
    | some listed =>
        rw [executed _ (fun context => FixtureFilter.resolver_listed table _ context listed isListed) (by simp)]
        simp [Except.mapError]
    | none =>
        rw [executed _ (fun context => FixtureFilter.resolver_unlisted table _ context isListed) (by simp)]
        simp [Except.mapError]
  · have absent : table.find? (Text.trim leaf.instruction) = none := by
      refine Option.eq_none_iff_forall_not_mem.mpr fun rows listed => ?_
      obtain ⟨texts, isListed, _⟩ := (lists _ rows).mp listed
      rw [unlisted] at isListed
      cases isListed
    rw [executed _ (fun context => FixtureFilter.resolver_unlisted table _ context absent) (by simp)]
    rfl

end Loads

section Printed

variable (host : Host) (plan fixtures : String) (config : Option String) (trace metrics : Bool)
  (outcome : Outcome Unit PipelineError IdentitySet) (evaluated : evaluate host plan fixtures config = .ok outcome)
include evaluated

theorem run_selected (rows : IdentitySet) (selected : outcome.result = .ok rows) :
    (run host (.eval plan fixtures config trace metrics)).code = 0 ∧
      (run host (.eval plan fixtures config trace metrics)).stdout = lines [(IdentitySet.toJson rows).pretty] := by
  simp [run, evaluated, selected]

theorem run_failed (error : PipelineError) (isFailure : outcome.result = .error error) :
    (run host (.eval plan fixtures config trace metrics)).code = 1 ∧
      (run host (.eval plan fixtures config trace metrics)).stdout = "" ∧
      ∃ notes, (run host (.eval plan fixtures config trace metrics)).stderr =
        lines (notes ++ ["error: " ++ (CommandError.ofFailure error.failure).message]) := by
  rw [run, evaluated]
  simp only [isFailure, failed, true_and]
  exact ⟨_, rfl⟩

end Printed

-- Whatever is listed under an instruction of the fixtures, the evaluation of a plan of that instruction prints what is
-- listed under the instruction without the blanks around it. So it answers what it was given for an instruction without
-- such blanks; for others it does if both are listed alike.
theorem fixture_answered (host : Host) (plan fixtures : String) (config : Option String) (trace metrics : Bool)
    (leaf : Leaf) (loaded : Fixtures) (settings : Config) (loads : Loads host plan fixtures config leaf loaded settings)
    (filter : FixtureFilter) (isFilter : loaded.filters.find? leaf.filter = some filter) (texts : List String)
    (listed : filter.answers.find? leaf.instruction = some texts) :
    let transcript := run host (.eval plan fixtures config trace metrics)
    let key := Text.trim leaf.instruction
    ∃ rows outcome, filter.Lists leaf.instruction rows ∧ evaluate host plan fixtures config = .ok outcome ∧
      (outcome.result = .ok rows ↔ filter.Lists key rows) ∧
      (key = leaf.instruction → transcript.code = 0 ∧ transcript.stdout = lines [(IdentitySet.toJson rows).pretty]) ∧
      (∀ other, filter.Lists key other → outcome.result = .ok other ∧
        transcript.code = 0 ∧ transcript.stdout = lines [(IdentitySet.toJson other).pretty]) ∧
      (filter.answers.find? key = none → outcome.result = .error (unanswered leaf) ∧
        transcript.code = 1 ∧ transcript.stdout = "" ∧
        ∃ notes, transcript.stderr =
          lines (notes ++ ["error: " ++ (CommandError.ofFailure (unanswered leaf).failure).message])) := by
  intro transcript key
  obtain ⟨rows, _, isRead⟩ :=
    IdentitySet.readable_parse texts (loads.readable.filters leaf.filter filter isFilter leaf.instruction texts listed)
  obtain ⟨outcome, evaluated, selects, fails⟩ :=
    evaluate_lone host plan fixtures config leaf loaded settings loads filter isFilter
  have lists : filter.Lists leaf.instruction rows := ⟨texts, listed, isRead⟩
  have prints (other : IdentitySet) (selected : outcome.result = .ok other) :
      transcript.code = 0 ∧ transcript.stdout = lines [(IdentitySet.toJson other).pretty] :=
    run_selected host plan fixtures config trace metrics outcome evaluated other selected
  refine ⟨rows, outcome, lists, evaluated, selects rows, fun bare => ?_, fun other also => ?_, fun unlisted => ?_⟩
  · have alsoLists : filter.Lists key rows := by
      rw [bare]
      exact lists
    exact prints rows ((selects rows).mpr alsoLists)
  · have selected := (selects other).mpr also
    exact ⟨selected, prints other selected⟩
  · have isFailure := fails unlisted
    exact ⟨isFailure, run_failed host plan fixtures config trace metrics outcome evaluated _ isFailure⟩

def catalogJson (answers : List (String × List String)) : Json :=
  .object [("filters", .object [("id", .object [("answers",
    .object (answers.map fun answer => (answer.1, .array (answer.2.map Json.string))))])])]

def catalog (answers : List (String × List String)) : Fixtures := ⟨[], .ofList [("id", ⟨"", .ofList answers⟩)]⟩

def catalogHost (instruction : String) (answers : List (String × List String)) : Host :=
  ⟨fun path => .ok (if path = "plan" then (Plan.ofNode (.leaf ⟨"id", instruction⟩)).text
    else (catalogJson answers).compact), fun _ => none⟩

theorem catalog_filter (answers : List (String × List String)) :
    (catalog answers).filters.find? "id" = some ⟨"", .ofList answers⟩ := rfl

theorem catalog_loads (instruction : String) (answers : List (String × List String))
    (numberless : (catalogJson answers).Numberless) (shallow : (catalogJson answers).depth ≤ nestingLimit)
    (isCatalog : Fixtures.ofJson? (catalogJson answers) = some (catalog answers))
    (distinct : (answers.map Prod.fst).Nodup) (readable : ∀ answer ∈ answers, IdentitySet.Readable answer.2) :
    Loads (catalogHost instruction answers) "plan" "fixtures" none ⟨"id", instruction⟩ (catalog answers) .default := by
  refine ⟨⟨_, rfl, Plan.leaf_read ⟨"id", instruction⟩⟩, ⟨_, rfl, ?_⟩, ⟨by simp [catalog, IdentitySet.Readable], ?_⟩,
    rfl, rfl⟩
  · change interpret Fixtures.ofJson? (Json.read nestingLimit (catalogJson answers).compact) = _
    rw [Json.read_compact nestingLimit _ numberless, if_pos shallow, interpret, isCatalog]
  · intro name filter isFilter key texts listed
    rw [catalog, NameMap.find_of_list _ (by simp), List.mem_singleton] at isFilter
    obtain ⟨rfl, rfl⟩ := Prod.mk.inj isFilter
    exact readable (key, texts) ((NameMap.find_of_list answers distinct key texts).mp listed)

def padded : List (String × List String) := [(" gardener ", ["gardener:10.4.1"])]

def doubled : List (String × List String) := [(" gardener ", ["gardener:10.4.1"]), ("gardener", ["gardener:9.0"])]

theorem padded_loads (instruction : String) :
    Loads (catalogHost instruction padded) "plan" "fixtures" none ⟨"id", instruction⟩ (catalog padded) .default := by
  refine catalog_loads instruction padded ?_ (by decide) rfl (by decide) fun answer inside text isText => ?_
  · simp [catalogJson, padded, Json.Numberless, Json.NumberlessMembers, Json.NumberlessItems]
  · fin_cases inside
    fin_cases isText
    exact ⟨_, rfl⟩

theorem doubled_loads (instruction : String) :
    Loads (catalogHost instruction doubled) "plan" "fixtures" none ⟨"id", instruction⟩ (catalog doubled) .default := by
  refine catalog_loads instruction doubled ?_ (by decide) rfl (by decide) fun answer inside text isText => ?_
  · simp [catalogJson, doubled, Json.Numberless, Json.NumberlessMembers, Json.NumberlessItems]
  · fin_cases inside <;> fin_cases isText <;> exact ⟨_, rfl⟩

theorem doubled_lists (rows : IdentitySet) :
    (FixtureFilter.mk "" (.ofList doubled)).Lists "gardener" rows ↔ rows = .ofList [⟨"gardener", some "9.0"⟩] := by
  have readable := (doubled_loads "gardener").readable.filters "id" _ (catalog_filter doubled)
  rw [FixtureFilter.lists_parse _ readable]
  constructor
  · rintro ⟨texts, found, parsed⟩
    obtain rfl : ["gardener:9.0"] = texts := Option.some.inj found
    exact (Except.ok.inj parsed).symm
  · rintro rfl
    exact ⟨["gardener:9.0"], rfl, rfl⟩

def bareListing : String := "[\n  \x7b\n    \"name\": \"gardener\",\n    \"version\": \"9.0\"\n  \x7d\n]\n"

theorem fixture_answered_bare :
    let transcript := run (catalogHost "gardener" doubled) (.eval "plan" "fixtures" none true true)
    Text.trim "gardener" = "gardener" ∧ transcript.code = 0 ∧ transcript.stdout = bareListing := by
  have bare : Text.trim "gardener" = "gardener" := by decide
  obtain ⟨rows, outcome, lists, _, _, answers, _⟩ := fixture_answered (catalogHost "gardener" doubled) "plan" "fixtures"
    none true true ⟨"id", "gardener"⟩ (catalog doubled) .default (doubled_loads "gardener") _ (catalog_filter doubled)
    ["gardener:9.0"] rfl
  obtain rfl := (doubled_lists rows).mp lists
  obtain ⟨succeeds, prints⟩ := answers bare
  exact ⟨bare, succeeds, prints.trans rfl⟩

theorem padded_instruction_lost :
    (catalog padded).filters.find? "id" = some ⟨"", .ofList padded⟩ ∧
      (NameMap.ofList padded).find? " gardener " = some ["gardener:10.4.1"] ∧
      run (catalogHost " gardener " padded) (.eval "plan" "fixtures" none false false) =
        ⟨1, "", "error: Resolver: filter 'id' failed at 'id' after 1 attempt(s): " ++
          "not applicable: no fixture answer for ' gardener '\n"⟩ ∧
      (NameMap.ofList doubled).find? " gardener " = some ["gardener:10.4.1"] ∧
      run (catalogHost " gardener " doubled) (.eval "plan" "fixtures" none false false) = ⟨0, bareListing, ""⟩ := by
  refine ⟨rfl, rfl, ?_, rfl, ?_⟩
  · obtain ⟨outcome, evaluated, _, fails⟩ := evaluate_lone (catalogHost " gardener " padded) "plan" "fixtures" none
      ⟨"id", " gardener "⟩ (catalog padded) .default (padded_loads " gardener ") _ (catalog_filter padded)
    rw [run, evaluated]
    simp only [fails rfl]
    rfl
  · obtain ⟨outcome, evaluated, selects, _⟩ := evaluate_lone (catalogHost " gardener " doubled) "plan" "fixtures" none
      ⟨"id", " gardener "⟩ (catalog doubled) .default (doubled_loads " gardener ") _ (catalog_filter doubled)
    have trimmed : Text.trim " gardener " = "gardener" := by decide
    have selected := (selects _).mpr (by rw [trimmed]; exact (doubled_lists _).mpr rfl)
    rw [run, evaluated]
    simp only [selected]
    rfl

end Command

end FilterPlan
