import FilterPlan.Config
import FilterPlan.Proofs.Numeral
import Mathlib.Data.List.Forall2
import Mathlib.Tactic.FinCases

set_option autoImplicit false

namespace FilterPlan

namespace Text

def InAnyCase (word text : String) : Prop :=
  List.Forall₂ (fun letter written => written = letter ∨ written = letter.toUpper) word.toList text.toList

theorem lower_code (letter : Char) :
    letter.toLower.toNat = if 65 ≤ letter.toNat ∧ letter.toNat ≤ 90 then letter.toNat + 32 else letter.toNat := by
  have range : letter.val ≥ 'A'.val ∧ letter.val ≤ 'Z'.val ↔ 65 ≤ letter.toNat ∧ letter.toNat ≤ 90 := Iff.rfl
  by_cases capital : letter.val ≥ 'A'.val ∧ letter.val ≤ 'Z'.val
  · have isLower : letter.toLower = _ := dif_pos capital
    have distance : ('a'.val - 'A'.val).toNat = 32 := by decide
    have bounds := range.mp capital
    rw [if_pos bounds, isLower, Char.toNat, UInt32.toNat_add, distance]
    exact Nat.mod_eq_of_lt (Nat.lt_of_le_of_lt (Nat.add_le_add_right bounds.2 32) (by decide))
  · rw [if_neg fun other => capital (range.mpr other)]
    exact congrArg Char.toNat (dif_neg capital)

theorem upper_code (letter : Char) :
    letter.toUpper.toNat = if 97 ≤ letter.toNat ∧ letter.toNat ≤ 122 then letter.toNat - 32 else letter.toNat := by
  have range : 'a'.val ≤ letter.val ∧ letter.val ≤ 'z'.val ↔ 97 ≤ letter.toNat ∧ letter.toNat ≤ 122 := Iff.rfl
  by_cases small : 'a'.val ≤ letter.val ∧ letter.val ≤ 'z'.val
  · have isUpper : letter.toUpper = _ := dif_pos small
    have distance : ('A'.val - 'a'.val).toNat = 2 ^ 32 - 32 := by decide
    have bounds := range.mp small
    rw [if_pos bounds, isUpper, Char.toNat, UInt32.toNat_add, distance]
    change (letter.toNat + (2 ^ 32 - 32)) % 2 ^ 32 = letter.toNat - 32
    omega
  · rw [if_neg fun other => small (range.mpr other)]
    exact congrArg Char.toNat (dif_neg small)

theorem lower_letter (letter written : Char) (small : ¬ letter.isUpper = true) :
    written.toLower = letter ↔ written = letter ∨ written = letter.toUpper := by
  have range : letter.isUpper = true ↔ 65 ≤ letter.toNat ∧ letter.toNat ≤ 90 := decide_eq_true_iff
  rw [range] at small
  rw [← Char.toNat_inj, ← Char.toNat_inj, ← Char.toNat_inj, lower_code, upper_code]
  split_ifs <;> omega

theorem lower_word (word text : String) (small : ∀ letter ∈ word.toList, ¬ letter.isUpper = true) :
    lowerAscii text = word ↔ InAnyCase word text := by
  rw [InAnyCase, lowerAscii, ← String.toList_inj, String.toList_map]
  generalize word.toList = letters at small
  generalize text.toList = written
  induction letters generalizing written with
  | nil => simp
  | cons letter rest ih =>
      cases written with
      | nil => simp
      | cons first others =>
          rw [List.map_cons, List.cons.injEq, List.forall₂_cons,
            lower_letter letter first (small letter List.mem_cons_self),
            ih (fun c inside => small c (List.mem_cons_of_mem letter inside))]

theorem trim_eq (text bare : String) : trim text = bare ↔ trimChars text.toList = bare.toList := by
  rw [trim, ← String.toList_inj, String.toList_ofList]

end Text

theorem MissingFilterPolicy.parse_word (text : String) (policy : MissingFilterPolicy) :
    parse text = .ok policy ↔ Text.InAnyCase policy.word (Text.trim text) := by
  rw [← Text.lower_word _ _ (by cases policy <;> simp [word]), ← policyWord, parse, ofWord?]
  by_cases isSkip : policyWord text = "skip"
  · cases policy <;> simp [isSkip, word]
  · by_cases isReject : policyWord text = "reject"
    · cases policy <;> simp [isReject, word]
    · cases policy <;> simp [isSkip, isReject, word]

theorem MissingOperandPolicy.parse_word (text : String) (policy : MissingOperandPolicy) :
    parse text = .ok policy ↔ Text.InAnyCase policy.word (Text.trim text) := by
  rw [← Text.lower_word _ _ (by cases policy <;> simp [word]), ← policyWord, parse, ofWord?]
  by_cases isEmpty : policyWord text = "empty"
  · cases policy <;> simp [isEmpty, word]
  · by_cases isReject : policyWord text = "reject"
    · cases policy <;> simp [isReject, word]
    · cases policy <;> simp [isEmpty, isReject, word]

namespace Config

def NumberMeans (limit : Nat) (text : String) (value : Nat) : Prop :=
  Text.Numeral (Text.trimChars text.toList) value ∧ value ≤ limit

def TimeLimitMeans (text : String) : Option Nat → Prop
  | none => Text.trim text = "" ∨ Text.trim text = "none"
  | some limit => NumberMeans maxWord64 text limit

theorem number_means (limit : Nat) (text : String) (value : Nat) :
    number limit text = .ok value ↔ NumberMeans limit text value := by
  rw [NumberMeans, ← Text.read_unsigned_iff, number]
  cases Text.readUnsigned limit (Text.trimChars text.toList) <;> simp

theorem unlimited_no_number (limit : Nat) (text : String) (unlimited : Text.trim text = "" ∨ Text.trim text = "none")
    (value : Nat) : ¬ NumberMeans limit text value := by
  rw [← number_means, number]
  rcases unlimited with isEmpty | isNone
  · rw [(Text.trim_eq _ _).mp isEmpty]
    exact fun read => nomatch read
  · rw [(Text.trim_eq _ _).mp isNone]
    exact fun read => nomatch read

theorem time_limit_means (text : String) (value : Option Nat) :
    timeLimit text = .ok value ↔ TimeLimitMeans text value := by
  rw [timeLimit]
  by_cases unlimited : Text.trim text = "" ∨ Text.trim text = "none"
  · rw [if_pos unlimited]
    cases value with
    | none => simp [TimeLimitMeans, unlimited]
    | some limit => simp [TimeLimitMeans, unlimited_no_number _ _ unlimited]
  · rw [if_neg unlimited]
    cases value with
    | none => cases read : number maxWord64 text <;> simp [Except.map, TimeLimitMeans, unlimited]
    | some limit =>
        rw [TimeLimitMeans, ← number_means]
        cases number maxWord64 text <;> simp [Except.map]

/-- What the environment can change, in the order in which the variables are read. -/
inductive Setting where
  | workers
  | queryTimeoutMs
  | resolverRetries
  | planRetries
  | maxNestingDepth
  | missingFilter
  | missingOperand
deriving DecidableEq, Repr

namespace Setting

def all : List Setting :=
  [.workers, .queryTimeoutMs, .resolverRetries, .planRetries, .maxNestingDepth, .missingFilter, .missingOperand]

def suffix : Setting → String
  | .workers => "WORKERS"
  | .queryTimeoutMs => "QUERY_TIMEOUT_MS"
  | .resolverRetries => "RESOLVER_RETRIES"
  | .planRetries => "PLAN_RETRIES"
  | .maxNestingDepth => "MAX_NESTING_DEPTH"
  | .missingFilter => "MISSING_FILTER"
  | .missingOperand => "MISSING_OPERAND"

def variableName (setting : Setting) : String := variablePrefix ++ setting.suffix

def Value : Setting → Type
  | .workers | .resolverRetries | .planRetries | .maxNestingDepth => Nat
  | .queryTimeoutMs => Option Nat
  | .missingFilter => MissingFilterPolicy
  | .missingOperand => MissingOperandPolicy

def get (config : Config) : (setting : Setting) → setting.Value
  | .workers => config.workers
  | .queryTimeoutMs => config.queryTimeoutMs
  | .resolverRetries => config.resolverRetries
  | .planRetries => config.planRetries
  | .maxNestingDepth => config.maxNestingDepth
  | .missingFilter => config.missingFilter
  | .missingOperand => config.missingOperand

def set (config : Config) : (setting : Setting) → setting.Value → Config
  | .workers, value => { config with workers := value }
  | .queryTimeoutMs, value => { config with queryTimeoutMs := value }
  | .resolverRetries, value => { config with resolverRetries := value }
  | .planRetries, value => { config with planRetries := value }
  | .maxNestingDepth, value => { config with maxNestingDepth := value }
  | .missingFilter, value => { config with missingFilter := value }
  | .missingOperand, value => { config with missingOperand := value }

theorem get_set (config : Config) (setting : Setting) (value : setting.Value) :
    setting.get (setting.set config value) = value := by
  cases setting <;> rfl

theorem get_set_other (config : Config) (setting other : Setting) (value : setting.Value)
    (different : other ≠ setting) : other.get (setting.set config value) = other.get config := by
  cases setting <;> cases other <;> first | rfl | exact absurd rfl different

def read : (setting : Setting) → String → Except String setting.Value
  | .workers => number maxWord64
  | .queryTimeoutMs => timeLimit
  | .resolverRetries | .planRetries | .maxNestingDepth => number maxWord32
  | .missingFilter => MissingFilterPolicy.parse
  | .missingOperand => MissingOperandPolicy.parse

def override (setting : Setting) : Override :=
  ⟨setting.suffix, fun text config => do .ok (setting.set config (← setting.read text))⟩

theorem overrides_all : overrides = all.map override := rfl

def Means : (setting : Setting) → String → setting.Value → Prop
  | .workers => NumberMeans maxWord64
  | .queryTimeoutMs => TimeLimitMeans
  | .resolverRetries | .planRetries | .maxNestingDepth => NumberMeans maxWord32
  | .missingFilter => fun text policy => Text.InAnyCase (MissingFilterPolicy.word policy) (Text.trim text)
  | .missingOperand => fun text policy => Text.InAnyCase (MissingOperandPolicy.word policy) (Text.trim text)

theorem read_means (setting : Setting) (text : String) (value : setting.Value) :
    setting.read text = .ok value ↔ setting.Means text value := by
  cases setting with
  | workers => exact number_means maxWord64 text value
  | queryTimeoutMs => exact time_limit_means text value
  | resolverRetries | planRetries | maxNestingDepth => exact number_means maxWord32 text value
  | missingFilter => exact MissingFilterPolicy.parse_word text value
  | missingOperand => exact MissingOperandPolicy.parse_word text value

theorem means_unique (setting : Setting) (text : String) (value other : setting.Value)
    (first : setting.Means text value) (second : setting.Means text other) : value = other := by
  rw [← read_means] at first second
  exact Except.ok.inj (first.symm.trans second)

section Lookup

variable (lookup : String → Option String)

def Good (setting : Setting) : Prop :=
  ∀ text, lookup setting.variableName = some text → ∃ value, setting.Means text value

def Becomes (setting : Setting) (old new : setting.Value) : Prop :=
  match lookup setting.variableName with
  | none => new = old
  | some text => setting.Means text new

def applied (config : Config) (setting : Setting) : Config :=
  match (lookup setting.variableName).map setting.read with
  | some (.ok value) => setting.set config value
  | _ => config

theorem applied_becomes (config : Config) (setting : Setting) (good : setting.Good lookup) :
    setting.Becomes lookup (setting.get config) (setting.get (applied lookup config setting)) := by
  rw [Becomes, applied]
  cases found : lookup setting.variableName with
  | none => rfl
  | some text =>
      obtain ⟨value, meant⟩ := good text found
      have read := (setting.read_means text value).mpr meant
      simp only [Option.map_some, read]
      rw [get_set]
      exact meant

theorem applied_other (config : Config) (setting other : Setting) (different : other ≠ setting) :
    other.get (applied lookup config setting) = other.get config := by
  rw [applied]
  split
  · rw [get_set_other _ _ _ _ different]
  · rfl

theorem override_apply (setting : Setting) (text : String) (config : Config) :
    setting.override.apply text config = (setting.read text).map (setting.set config) := by
  simp only [override]
  cases setting.read text <;> rfl

theorem override_good (setting : Setting) (rest : List Override) (config : Config) (good : setting.Good lookup) :
    applyOverrides lookup (setting.override :: rest) config =
      applyOverrides lookup rest (applied lookup config setting) := by
  rw [applyOverrides, applied]
  change (match lookup setting.variableName with | none => _ | some text => _) = _
  cases found : lookup setting.variableName with
  | none => rfl
  | some text =>
      obtain ⟨value, meant⟩ := good text found
      have read := (setting.read_means text value).mpr meant
      have isApplied : setting.override.apply text config = .ok (setting.set config value) := by
        rw [override_apply, read]
        rfl
      simp only [isApplied, Option.map_some, read]

theorem override_bad (setting : Setting) (rest : List Override) (config : Config) (bad : ¬ setting.Good lookup) :
    ∃ text reason, lookup setting.variableName = some text ∧
      applyOverrides lookup (setting.override :: rest) config =
        (config, .error (.invalidValue setting.variableName ("'" ++ text ++ "': " ++ reason))) := by
  simp only [Good, not_forall, not_exists] at bad
  obtain ⟨text, found, meaningless⟩ := bad
  cases read : setting.read text with
  | ok value => exact absurd ((setting.read_means text value).mp read) (meaningless value)
  | error reason =>
      have isApplied : setting.override.apply text config = .error reason := by
        rw [override_apply, read]
        rfl
      refine ⟨text, reason, found, ?_⟩
      rw [applyOverrides]
      change (match lookup setting.variableName with | none => _ | some text => _) = _
      simp only [found, isApplied]
      rfl

theorem overrides_good (settings : List Setting) (rest : List Override) (config : Config)
    (good : ∀ setting ∈ settings, setting.Good lookup) :
    applyOverrides lookup (settings.map override ++ rest) config =
      applyOverrides lookup rest (settings.foldl (applied lookup) config) := by
  induction settings generalizing config with
  | nil => rfl
  | cons first others ih =>
      rw [List.map_cons, List.cons_append, override_good lookup first _ config (good first List.mem_cons_self),
        ih _ fun setting inside => good setting (List.mem_cons_of_mem first inside), List.foldl_cons]

theorem settings_other (settings : List Setting) (config : Config) (other : Setting) (absent : other ∉ settings) :
    other.get (settings.foldl (applied lookup) config) = other.get config := by
  induction settings generalizing config with
  | nil => rfl
  | cons first others ih =>
      rw [List.mem_cons, not_or] at absent
      rw [List.foldl_cons, ih _ absent.2, applied_other lookup config first other absent.1]

theorem settings_become (settings : List Setting) (config : Config) (distinct : settings.Nodup)
    (good : ∀ setting ∈ settings, setting.Good lookup) (setting : Setting) (listed : setting ∈ settings) :
    setting.Becomes lookup (setting.get config) (setting.get (settings.foldl (applied lookup) config)) := by
  induction settings generalizing config with
  | nil => cases listed
  | cons first others ih =>
      obtain ⟨absent, distinctOthers⟩ := List.nodup_cons.mp distinct
      rw [List.foldl_cons]
      rcases List.mem_cons.mp listed with rfl | later
      · rw [settings_other lookup others _ setting absent]
        exact applied_becomes lookup config setting (good setting List.mem_cons_self)
      · have different : setting ≠ first := fun same => absent (same ▸ later)
        rw [← applied_other lookup config first setting different]
        exact ih _ distinctOthers (fun other inside => good other (List.mem_cons_of_mem first inside)) later

end Lookup

end Setting

theorem validate_iff (config : Config) :
    config.validate = .ok () ↔ 1 ≤ config.workers ∧ config.queryTimeoutMs ≠ some 0 := by
  rw [validate]
  split_ifs with idle timeless
  · simp [idle]
  · simp [timeless]
  · simp [timeless, Nat.one_le_iff_ne_zero, idle]

theorem overrides_valid (lookup : String → Option String) (overrides : List Override) (config : Config)
    (accepted : (applyOverrides lookup overrides config).2 = .ok ()) :
    (applyOverrides lookup overrides config).1.validate = .ok () := by
  fun_induction applyOverrides lookup overrides config <;> simp_all

theorem load_valid (document : Option String) (lookup : String → Option String) (config : Config)
    (loaded : load document lookup = .ok config) : config.validate = .ok () := by
  have settled (first : Config) (accepted : ((first.applyEnvironment lookup).2 >>= fun _ =>
      .ok (first.applyEnvironment lookup).1) = .ok config) : config.validate = .ok () := by
    have valid := overrides_valid lookup overrides first
    rw [← applyEnvironment] at valid
    cases result : (first.applyEnvironment lookup).2 with
    | error error =>
        rw [result] at accepted
        cases accepted
    | ok _ =>
        rw [result] at accepted
        rw [← Except.ok.inj accepted]
        exact valid result
  cases document with
  | none => exact settled default loaded
  | some document =>
      dsimp only [load] at loaded
      cases isRead : ofToml document with
      | error error =>
          rw [isRead] at loaded
          cases loaded
      | ok first =>
          rw [isRead] at loaded
          exact settled first loaded

-- The variables are applied one after the other. If all are good, each setting becomes what its variable means; of the
-- first that is bad the error speaks, and its setting and the later ones stay.
theorem environment_applied (config : Config) (lookup : String → Option String) :
    let outcome := config.applyEnvironment lookup
    ((∀ setting : Setting, setting.Good lookup) →
      (∀ setting : Setting, setting.Becomes lookup (setting.get config) (setting.get outcome.1)) ∧
      (outcome.2 = .ok () ↔ 1 ≤ outcome.1.workers ∧ outcome.1.queryTimeoutMs ≠ some 0) ∧
      (outcome.1.workers = 0 → outcome.2 = .error (.invalidValue "workers" "must be at least 1")) ∧
      (1 ≤ outcome.1.workers → outcome.1.queryTimeoutMs = some 0 → outcome.2 =
        .error (.invalidValue "query_timeout_ms" "must be positive; omit it to disable the deadline"))) ∧
    ∀ before bad after, Setting.all = before ++ bad :: after →
      (∀ setting ∈ before, setting.Good lookup) → ¬ bad.Good lookup →
        (∃ text reason, lookup bad.variableName = some text ∧
          outcome.2 = .error (.invalidValue bad.variableName ("'" ++ text ++ "': " ++ reason))) ∧
        (∀ setting ∈ before, setting.Becomes lookup (setting.get config) (setting.get outcome.1)) ∧
        (∀ setting ∈ bad :: after, setting.get outcome.1 = setting.get config) := by
  have distinct : Setting.all.Nodup := by decide
  have listed : ∀ setting, setting ∈ Setting.all := by
    intro setting
    cases setting <;> decide
  refine ⟨fun good => ?_, fun before bad after isAll good isBad => ?_⟩
  · have run := Setting.overrides_good lookup Setting.all [] config fun setting _ => good setting
    rw [List.append_nil, ← Setting.overrides_all] at run
    have become := fun setting => Setting.settings_become lookup Setting.all config distinct
      (fun setting _ => good setting) setting (listed setting)
    rw [applyEnvironment, run, applyOverrides]
    generalize Setting.all.foldl (Setting.applied lookup) config = final at become
    exact ⟨become, final.validate_iff, fun idle => by rw [validate, if_pos idle],
      fun working timeless => by rw [validate, if_neg (Nat.one_le_iff_ne_zero.mp working), if_pos timeless]⟩
  · rw [isAll] at distinct
    have run := Setting.overrides_good lookup before ((bad :: after).map Setting.override) config good
    rw [← List.map_append, ← isAll, ← Setting.overrides_all] at run
    obtain ⟨text, reason, found, failed⟩ := bad.override_bad lookup (after.map Setting.override)
      (before.foldl (Setting.applied lookup) config) isBad
    rw [applyEnvironment, run, List.map_cons, failed]
    obtain ⟨distinctBefore, _, apart⟩ := List.nodup_append.mp distinct
    refine ⟨⟨text, reason, found, rfl⟩, fun setting => ?_, fun setting later => ?_⟩
    · exact Setting.settings_become lookup before config distinctBefore good setting
    · exact Setting.settings_other lookup before config setting fun earlier => apart setting earlier setting later rfl

def overfull (name : String) : Option String :=
  if name = "PLANSIEVE_WORKERS" then some " +01 "
  else if name = "PLANSIEVE_PLAN_RETRIES" then some "4294967296"
  else if name = "PLANSIEVE_MISSING_OPERAND" then some "Reject"
  else none

def unlimited (name : String) : Option String := if name = "PLANSIEVE_QUERY_TIMEOUT_MS" then some " none" else none

theorem overfull_early :
    ∀ setting ∈ [Setting.workers, .queryTimeoutMs, .resolverRetries], setting.Good overfull := by
  intro setting listed text found
  fin_cases listed
  · obtain rfl : " +01 " = text := Option.some.inj found
    exact ⟨_, (Setting.read_means .workers " +01 " (1 : Nat)).mp rfl⟩
  · cases found
  · cases found

theorem overfull_bad : ¬ Setting.planRetries.Good overfull := by
  intro good
  obtain ⟨value, meant⟩ := good "4294967296" rfl
  cases (Setting.read_means _ _ _).mpr meant

theorem unlimited_good (setting : Setting) : setting.Good unlimited := by
  intro text found
  cases setting with
  | queryTimeoutMs =>
      obtain rfl : " none" = text := Option.some.inj found
      exact ⟨_, (Setting.read_means .queryTimeoutMs " none" (none : Option Nat)).mp rfl⟩
  | workers | resolverRetries | planRetries | maxNestingDepth | missingFilter | missingOperand => cases found

theorem environment_applied_retries :
    let outcome := default.applyEnvironment overfull
    let timed : Config := { default with queryTimeoutMs := some 5 }
    (∃ reason, outcome.2 =
      .error (.invalidValue "PLANSIEVE_PLAN_RETRIES" ("'" ++ "4294967296" ++ "': " ++ reason))) ∧
      outcome.1.workers = 1 ∧ outcome.1.planRetries = 2 ∧ outcome.1.missingOperand = .empty ∧
      (timed.applyEnvironment unlimited).1.queryTimeoutMs = none ∧
      (timed.applyEnvironment unlimited).2 = .ok () := by
  intro outcome timed
  obtain ⟨_, failed⟩ := environment_applied default overfull
  obtain ⟨⟨text, reason, found, result⟩, become, stay⟩ := failed [.workers, .queryTimeoutMs, .resolverRetries]
    .planRetries [.maxNestingDepth, .missingFilter, .missingOperand] rfl overfull_early overfull_bad
  obtain rfl : "4294967296" = text := Option.some.inj found
  have isOne : outcome.1.workers = 1 := Setting.means_unique .workers " +01 " outcome.1.workers (1 : Nat)
    (become .workers (by decide)) ((Setting.read_means _ _ _).mp rfl)
  obtain ⟨succeeded, _⟩ := environment_applied timed unlimited
  obtain ⟨becomeAll, valid, _⟩ := succeeded unlimited_good
  have isUnlimited : (timed.applyEnvironment unlimited).1.queryTimeoutMs = none :=
    Setting.means_unique .queryTimeoutMs " none" _ _ (becomeAll .queryTimeoutMs) ((Setting.read_means _ _ _).mp rfl)
  have isFour : (timed.applyEnvironment unlimited).1.workers = 4 := becomeAll .workers
  refine ⟨⟨reason, result⟩, isOne, stay .planRetries (by decide), stay .missingOperand (by decide), isUnlimited,
    valid.mpr ⟨?_, ?_⟩⟩
  · rw [isFour]
    decide
  · rw [isUnlimited]
    decide

end Config

end FilterPlan
