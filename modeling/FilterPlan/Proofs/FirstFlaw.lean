import FilterPlan.Proofs.Flaws

set_option autoImplicit false

namespace FilterPlan

namespace Node

structure FirstFlaw (value : Json) (flaw : Flaw) : Prop where
  flawed : Flawed value flaw
  first : ∀ other, Flawed value other → other ≠ flaw → flaw.Before other

def Reports (value : Json) : Prop :=
  ∀ location error, read location value = .error error → ∃ flaw, FirstFlaw value flaw ∧ error = flaw.error location

theorem here_reports (value : Json) (complaint : Complaint) (wrong : Wrong value complaint)
    (early : complaint ≠ .malformed (.operandMissing .b)) : Reports value := by
  intro location error failed
  have reported := wrong_read value complaint wrong early
  refine ⟨⟨[], value, complaint⟩, ⟨⟨.self value, wrong⟩, ?_⟩, Except.error.inj (failed.symm.trans (reported location))⟩
  rintro ⟨steps, part, other⟩ ⟨located, isWrong⟩ different
  rw [Flaw.Before, Flaw.moment, if_neg early, Flaw.moment]
  dsimp only at located isWrong ⊢
  by_cases late : other = .malformed (.operandMissing .b)
  · rw [if_pos late]
    cases steps <;> exact .inside _ _
  · rw [if_neg late]
    cases located with
    | self =>
        have same := (wrong_read value other isWrong late []).symm.trans (reported [])
        exact absurd (by rw [Complaint.at_same [] other complaint (Except.error.inj same)]) different
    | child | operandA | operandB => exact .inside _ _

theorem spelled_reports (value : Json) (node : Node) (spelled : Spells value node) : Reports value := by
  intro location error failed
  rw [read_spelled location value node spelled] at failed
  cases failed

theorem text_reports (members : List (String × Json)) (plain : Json.lookup "logical_operator" members = none)
    (name : String) (named : Json.lookup "filter_name" members = some (.string name)) (value : Json)
    (asked : Json.lookup "instruction" members = some value ∨
      Json.lookup "instruction" members = none ∧ Json.lookup "question" members = some value) :
    Reports (.object members) := by
  by_cases shape : ∃ text, value = .string text
  · obtain ⟨text, rfl⟩ := shape
    exact spelled_reports _ _ (.leaf plain named asked)
  · exact here_reports _ _ (.textNotString plain named asked (not_exists.mp shape)) (by simp)

theorem leaf_reports (members : List (String × Json)) (plain : Json.lookup "logical_operator" members = none) :
    Reports (.object members) := by
  cases named : Json.lookup "filter_name" members with
  | some value =>
      by_cases shape : ∃ name, value = .string name
      · obtain ⟨name, rfl⟩ := shape
        cases told : Json.lookup "instruction" members with
        | some text => exact text_reports members plain name named text (.inl told)
        | none =>
            cases asked : Json.lookup "question" members with
            | some text => exact text_reports members plain name named text (.inr ⟨told, asked⟩)
            | none => exact here_reports _ _ (.textMissing plain named told asked) (by simp)
      · exact here_reports _ _ (.nameNotString plain named (not_exists.mp shape)) (by simp)
  | none =>
      cases found : ["AND", "OR", "XOR", "NOT"].find? fun key => (Json.lookup key members).isSome with
      | none =>
          refine here_reports _ _ (.unrecognised plain named fun key inside => ?_) (by simp)
          simpa using List.find?_eq_none.mp found key inside
      | some key =>
          obtain ⟨held, before, after, listed, free⟩ := List.find?_eq_some_iff_append.mp found
          refine here_reports _ _ (.wrapped plain named listed (fun earlier inside => ?_)
            (Option.isSome_iff_ne_none.mp held)) (by simp)
          simpa using free earlier inside

theorem all_reports (items : List Json) (each : ∀ item ∈ items, Reports item) (location : Location) (start : Nat)
    (error : PlanError) (failed : readAll location start items = .error error) :
    ∃ index item flaw, items[index]? = some item ∧ FirstFlaw item flaw ∧
      error = flaw.error (.item (start + index) :: location) ∧
      ∀ earlier < index, ∀ other, items[earlier]? = some other → ∀ flaw, ¬ Flawed other flaw := by
  induction items generalizing start with
  | nil =>
      rw [readAll] at failed
      cases failed
  | cons item items ih =>
      rw [readAll] at failed
      cases first : read (.item start :: location) item with
      | error reported =>
          rw [first] at failed
          obtain ⟨flaw, isFirst, same⟩ := each item List.mem_cons_self _ reported first
          exact ⟨0, item, flaw, rfl, isFirst, (Except.error.inj failed).symm.trans same, by simp⟩
      | ok node =>
          rw [first] at failed
          cases rest : readAll location (start + 1) items with
          | ok nodes =>
              rw [rest] at failed
              cases failed
          | error reported =>
              rw [rest] at failed
              obtain rfl : reported = error := Except.error.inj failed
              obtain ⟨index, found, flaw, held, isFirst, same, clear⟩ :=
                ih (fun other inside => each other (List.mem_cons_of_mem _ inside)) (start + 1) rest
              refine ⟨index + 1, found, flaw, held, isFirst, ?_, fun earlier less other isOther => ?_⟩
              · rw [same, Nat.add_assoc, Nat.add_comm 1 index]
              · cases earlier with
                | zero =>
                    cases isOther
                    exact read_flawless _ item node first
                | succ earlier => exact clear earlier (by omega) other isOther

theorem first_below (value inner : Json) (step : DocumentStep) (flaw : Flaw) (isFirst : FirstFlaw inner flaw)
    (enters : ∀ steps part, Located inner steps part → Located value (step :: steps) part)
    (others : ∀ other, Flawed value other →
      (∃ below, Flawed inner below ∧ other = below.below step) ∨ (flaw.below step).Before other) :
    FirstFlaw value (flaw.below step) := by
  refine ⟨⟨enters _ _ isFirst.flawed.located, isFirst.flawed.wrong⟩, fun other flawed different => ?_⟩
  rcases others other flawed with ⟨below, belowFlawed, rfl⟩ | before
  · rw [Flaw.Before, Flaw.moment_below, Flaw.moment_below]
    exact .deeper step (isFirst.first below belowFlawed fun same => different (by rw [same]))
  · exact before

theorem first_in_child (members : List (String × Json)) (operator : Operator) (items : List Json) (index : Nat)
    (item : Json) (flaw : Flaw) (connective : operator ≠ .not)
    (tagged : Json.lookup "logical_operator" members = some (.string operator.tag))
    (listed : Json.lookup "filter" members = some (.array items)) (held : items[index]? = some item)
    (isFirst : FirstFlaw item flaw)
    (clear : ∀ earlier < index, ∀ other, items[earlier]? = some other → ∀ flaw, ¬ Flawed other flaw) :
    FirstFlaw (.object members) (flaw.below (.item index)) := by
  refine first_below _ item _ flaw isFirst (fun _ _ => .child connective tagged listed held) fun other flawed => ?_
  obtain ⟨place, child, inner, isChild, innerFlawed, rfl⟩ :=
    flawed_connective members operator items connective tagged listed other flawed
  rcases Nat.lt_trichotomy place index with less | same | more
  · exact absurd innerFlawed (clear place less child isChild inner)
  · subst same
    cases held.symm.trans isChild
    exact .inl ⟨inner, innerFlawed, rfl⟩
  · rw [Flaw.Before, Flaw.moment_below, Flaw.moment_below]
    exact .inr (.items more _ _)

theorem first_in_a (members : List (String × Json)) (value : Json) (flaw : Flaw)
    (tagged : Json.lookup "logical_operator" members = some (.string "NOT"))
    (found : Json.lookup "filterA" members = some value) (isFirst : FirstFlaw value flaw) :
    FirstFlaw (.object members) (flaw.below (.operand .a)) := by
  refine first_below _ value _ flaw isFirst (fun _ _ => .operandA tagged found) fun other flawed => ?_
  rw [Flaw.Before, Flaw.moment_below]
  rcases flawed_not members tagged other flawed with
    ⟨missing, _⟩ | ⟨_, rfl⟩ | ⟨_, inner, isA, innerFlawed, rfl⟩ | ⟨_, inner, _, _, rfl⟩
  · cases found.symm.trans missing
  · exact .inr (.operands _ _)
  · cases found.symm.trans isA
    exact .inl ⟨inner, innerFlawed, rfl⟩
  · rw [Flaw.moment_below]
    exact .inr (.operands _ _)

theorem first_missing_b (members : List (String × Json)) (value : Json)
    (tagged : Json.lookup "logical_operator" members = some (.string "NOT"))
    (found : Json.lookup "filterA" members = some value) (flawless : ∀ flaw, ¬ Flawed value flaw)
    (missing : Json.lookup "filterB" members = none) :
    FirstFlaw (.object members) ⟨[], .object members, .malformed (.operandMissing .b)⟩ := by
  refine ⟨⟨.self _, .missingB tagged missing⟩, fun other flawed different => ?_⟩
  rcases flawed_not members tagged other flawed with
    ⟨missingA, _⟩ | ⟨_, rfl⟩ | ⟨_, inner, isA, innerFlawed, _⟩ | ⟨_, _, isB, _⟩
  · cases found.symm.trans missingA
  · exact absurd rfl different
  · cases found.symm.trans isA
    exact absurd innerFlawed (flawless inner)
  · cases missing.symm.trans isB

theorem first_in_b (members : List (String × Json)) (valueA value : Json) (flaw : Flaw)
    (tagged : Json.lookup "logical_operator" members = some (.string "NOT"))
    (foundA : Json.lookup "filterA" members = some valueA) (flawless : ∀ flaw, ¬ Flawed valueA flaw)
    (found : Json.lookup "filterB" members = some value) (isFirst : FirstFlaw value flaw) :
    FirstFlaw (.object members) (flaw.below (.operand .b)) := by
  refine first_below _ value _ flaw isFirst (fun _ _ => .operandB tagged found) fun other flawed => ?_
  rcases flawed_not members tagged other flawed with
    ⟨missing, _⟩ | ⟨missing, _⟩ | ⟨_, inner, isA, innerFlawed, _⟩ | ⟨_, inner, isB, innerFlawed, rfl⟩
  · cases foundA.symm.trans missing
  · cases found.symm.trans missing
  · cases foundA.symm.trans isA
    exact absurd innerFlawed (flawless inner)
  · cases found.symm.trans isB
    exact .inl ⟨inner, innerFlawed, rfl⟩

theorem connective_reports (members : List (String × Json)) (operator : Operator) (connective : operator ≠ .not)
    (tagged : Json.lookup "logical_operator" members = some (.string operator.tag))
    (each : ∀ items, Json.lookup "filter" members = some (.array items) → ∀ item ∈ items, Reports item) :
    Reports (.object members) := by
  cases found : Json.lookup "filter" members with
  | none => exact here_reports _ _ (.childrenMissing connective tagged found) (by simp)
  | some value =>
      by_cases shape : ∃ items, value = .array items
      · obtain ⟨items, rfl⟩ := shape
        intro location error failed
        obtain ⟨connect, isRead⟩ := read_connective location members operator connective tagged
        rw [isRead, found, readChildren] at failed
        cases all : readAll location 0 items with
        | ok nodes =>
            rw [all] at failed
            cases failed
        | error reported =>
            rw [all] at failed
            obtain rfl : reported = error := Except.error.inj failed
            obtain ⟨index, item, flaw, held, isFirst, same, clear⟩ :=
              all_reports items (each items found) location 0 reported all
            refine ⟨flaw.below (.item index),
              first_in_child members operator items index item flaw connective tagged found held isFirst clear, ?_⟩
            rw [Flaw.error_below, same, Nat.zero_add]
      · exact here_reports _ _ (.childrenNotArray connective tagged found (not_exists.mp shape)) (by simp)

theorem operand_reports (members : List (String × Json))
    (tagged : Json.lookup "logical_operator" members = some (.string "NOT"))
    (eachA : ∀ value, Json.lookup "filterA" members = some value → Reports value)
    (eachB : ∀ value, Json.lookup "filterB" members = some value → Reports value) : Reports (.object members) := by
  cases foundA : Json.lookup "filterA" members with
  | none => exact here_reports _ _ (.missingA tagged foundA) (by simp)
  | some valueA =>
      intro location error failed
      rw [read_not location members tagged, foundA, readOperand] at failed
      cases readA : read (.operand .a :: location) valueA with
      | error reported =>
          rw [readA] at failed
          obtain rfl : reported = error := Except.error.inj failed
          obtain ⟨flaw, isFirst, same⟩ := eachA valueA foundA _ reported readA
          exact ⟨_, first_in_a members valueA flaw tagged foundA isFirst, by rw [Flaw.error_below, same]⟩
      | ok a =>
          rw [readA] at failed
          have flawless := read_flawless _ valueA a readA
          cases foundB : Json.lookup "filterB" members with
          | none =>
              rw [foundB] at failed
              exact ⟨_, first_missing_b members valueA tagged foundA flawless foundB, (Except.error.inj failed).symm⟩
          | some valueB =>
              rw [foundB, readOperand] at failed
              cases readB : read (.operand .b :: location) valueB with
              | ok b =>
                  rw [readB] at failed
                  cases failed
              | error reported =>
                  rw [readB] at failed
                  obtain rfl : reported = error := Except.error.inj failed
                  obtain ⟨flaw, isFirst, same⟩ := eachB valueB foundB _ reported readB
                  exact ⟨_, first_in_b members valueA valueB flaw tagged foundA flawless foundB isFirst,
                    by rw [Flaw.error_below, same]⟩

theorem reports (value : Json) : Reports value := by
  cases value with
  | object members =>
      cases tagged : Json.lookup "logical_operator" members with
      | none => exact leaf_reports members tagged
      | some found =>
          by_cases worded : ∃ tag, found = .string tag
          · obtain ⟨tag, rfl⟩ := worded
            cases named : Operator.ofTag? tag with
            | none =>
                refine here_reports _ _ (.operatorUnknown tagged fun known => ?_) (by simp)
                rcases (by simpa using known : tag = "AND" ∨ tag = "OR" ∨ tag = "NOT") with rfl | rfl | rfl <;>
                  cases named
            | some operator =>
                obtain rfl := (Operator.of_tag_iff operator tag).mp named
                by_cases connective : operator = .not
                · subst connective
                  refine operand_reports members tagged (fun inner held => ?_) fun inner held => ?_
                  · have smaller : sizeOf inner < sizeOf (Json.object members) := found_smaller _ _ _ held
                    exact reports inner
                  · have smaller : sizeOf inner < sizeOf (Json.object members) := found_smaller _ _ _ held
                    exact reports inner
                · refine connective_reports members operator connective tagged fun items listed item inside => ?_
                  have smaller : sizeOf item < sizeOf (Json.object members) :=
                    Nat.lt_trans (List.sizeOf_lt_of_mem inside) (listed_smaller _ _ _ listed)
                  exact reports item
          · exact here_reports _ _ (.operatorNotString tagged (not_exists.mp worded)) (by simp)
  | _ => exact here_reports _ _ (.notObject (by simp)) (by simp)
termination_by sizeOf value
decreasing_by all_goals assumption

theorem first_unique (value : Json) (flaw other : Flaw) (isFirst : FirstFlaw value flaw)
    (otherFirst : FirstFlaw value other) : flaw = other := by
  by_cases same : flaw = other
  · exact same
  · have before := otherFirst.first flaw isFirst.flawed same
    exact absurd (isFirst.first other otherFirst.flawed (Ne.symm same)) (DocumentStep.before_asymm _ _ before)

-- What reading reports does not depend on where the value stands; only the location does.
theorem read_error_iff (location : Location) (value : Json) (error : PlanError) :
    read location value = .error error ↔ ∃ flaw, FirstFlaw value flaw ∧ error = flaw.error location := by
  refine ⟨reports value location error, ?_⟩
  rintro ⟨flaw, isFirst, rfl⟩
  cases held : read location value with
  | ok node => exact absurd isFirst.flawed (read_flawless location value node held flaw)
  | error reported =>
      obtain ⟨other, otherFirst, rfl⟩ := reports value location reported held
      rw [first_unique value flaw other isFirst otherFirst]

theorem located_follow (value part : Json) (steps : List DocumentStep) (located : Located value steps part) :
    value.follow steps = some part := by
  induction located with
  | self => rfl
  | child _ _ listed held _ ih => simp [Json.follow, listed, held, ih]
  | operandA _ found _ ih | operandB _ found _ ih => simp [Json.follow, found, ih]

end Node

namespace Plan

inductive Flawed : Json → Flaw → Prop where
  | document {value : Json} (shape : ∀ members, value ≠ .object members) :
      Flawed value ⟨[], value, .malformed .documentNotObject⟩
  | node {members : List (String × Json)} {root : Json} {inner : Flaw}
      (found : Json.lookup "filter" members = some root) (filled : root ≠ .null) (flawed : Node.Flawed root inner) :
      Flawed (.object members) (inner.below .filter)

theorem of_json_object (members : List (String × Json)) (error : PlanError)
    (rejected : ofJson (.object members) = .error error) :
    ∃ root, Json.lookup "filter" members = some root ∧ root ≠ .null ∧ Node.read [.filter] root = .error error := by
  unfold ofJson filterKey at rejected
  dsimp only at rejected
  split at rejected
  · cases rejected
  · cases rejected
  · rename_i root filled found
    cases held : Node.read [.filter] root with
    | ok node =>
        rw [held] at rejected
        cases rejected
    | error reported =>
        rw [held] at rejected
        obtain rfl : reported = error := Except.error.inj rejected
        exact ⟨root, found, filled, held⟩

theorem flawed_follow (value : Json) (flaw : Flaw) (flawed : Flawed value flaw) :
    value.follow flaw.steps = some flaw.part := by
  cases flawed with
  | document => rfl
  | @node members root inner found filled flawed =>
      have inside := Node.located_follow root inner.part inner.steps flawed.located
      simp [Flaw.below, Json.follow, found, inside]

theorem flaw_location (location : Location) :
    ∃ rest, Location.text (location ++ [.filter]) = "$.filter" ++ rest ∧ location.text = "$" ++ rest := by
  refine ⟨String.join (location.reverse.map DocumentStep.text), ?_, rfl⟩
  rw [Location.text, List.reverse_append, List.reverse_singleton, List.singleton_append, List.map_cons,
    String.join_cons, ← String.append_assoc]
  rfl

-- A document that is rejected is rejected for the first of its flaws, and the location leads to the part that has it.
theorem rejected_at_first_flaw (value : Json) (error : PlanError) (rejected : ofJson value = .error error) :
    ∃ (flaw : Flaw) (location : Location), Flawed value flaw ∧ location = flaw.steps.reverse ∧
      error = flaw.complaint.at location ∧ value.follow flaw.steps = some flaw.part ∧
      (∀ other : Location, other.text = location.text → other = location) ∧
      (∀ other, Flawed value other → other ≠ flaw → flaw.Before other ∧ ¬ other.Before flaw) ∧
      ∀ members root, value = .object members → Json.lookup "filter" members = some root →
        ∃ (inner : Location) (rest : String), Node.read [] root = .error (flaw.complaint.at inner) ∧
          location.text = "$.filter" ++ rest ∧ inner.text = "$" ++ rest := by
  by_cases shape : ∃ members, value = .object members
  · obtain ⟨members, rfl⟩ := shape
    obtain ⟨root, found, filled, failed⟩ := of_json_object members error rejected
    obtain ⟨inner, isFirst, rfl⟩ := (Node.read_error_iff [.filter] root error).mp failed
    have flawed : Flawed (.object members) (inner.below .filter) := .node found filled isFirst.flawed
    refine ⟨inner.below .filter, inner.steps.reverse ++ [.filter], flawed, by simp [Flaw.below], rfl,
      flawed_follow _ _ flawed, fun other same => Location.text_same other _ same,
      fun other isOther different => ?_, ?_⟩
    · have before : (inner.below .filter).Before other := by
        cases isOther with
        | document shape => exact absurd rfl (shape members)
        | node isRoot _ innerFlawed =>
            cases found.symm.trans isRoot
            rw [Flaw.Before, Flaw.moment_below, Flaw.moment_below]
            exact .deeper _ (isFirst.first _ innerFlawed fun same => different (by rw [same]))
      exact ⟨before, DocumentStep.before_asymm _ _ before⟩
    · intro others other same isRoot
      obtain rfl := Json.object.inj same
      cases found.symm.trans isRoot
      obtain ⟨rest, outside, inside⟩ := flaw_location inner.steps.reverse
      refine ⟨inner.steps.reverse, rest, ?_, outside, inside⟩
      have alone := (Node.read_error_iff [] root _).mpr ⟨inner, isFirst, rfl⟩
      rwa [Flaw.error, List.append_nil] at alone
  · have notObject : ∀ members, value ≠ .object members := not_exists.mp shape
    refine ⟨⟨[], value, .malformed .documentNotObject⟩, [], .document notObject, rfl, ?_, rfl,
      fun other same => Location.text_same other _ same, fun other isOther different => ?_, ?_⟩
    · cases value with
      | object members => exact absurd rfl (notObject members)
      | _ => exact (Except.error.inj rejected).symm
    · cases isOther with
      | document => exact absurd rfl different
      | @node members => exact absurd rfl (notObject members)
    · intro members root isObject
      exact absurd isObject (notObject members)

theorem rejected_at_first_flaw_nested :
    let leaf : Json := .object [("filter_name", .string "id"), ("instruction", .string "x")]
    let listing : Json := .object [("logical_operator", .string "OR"), ("filter", .array [leaf, .bool true])]
    let difference : Json := .object [("logical_operator", .string "NOT"), ("filterA", listing)]
    let value : Json := .object [("filter", .object [("logical_operator", .string "AND"),
      ("filter", .array [leaf, difference, .null])])]
    let location : Location := [.item 1, .operand .a, .item 1, .filter]
    ofJson value = .error (.malformedNode location .nodeNotObject) ∧
      location.text = "$.filter.filter[1].filterA.filter[1]" ∧
      ∃ flaw, Flawed value flaw ∧ location = flaw.steps.reverse ∧ value.follow flaw.steps = some flaw.part ∧
        ∀ other, Flawed value other → other ≠ flaw → flaw.Before other := by
  intro leaf listing difference value location
  have rejected : ofJson value = .error (.malformedNode location .nodeNotObject) := by
    simp [ofJson, Node.read_object, Node.read_not_object, Node.readTagged, Node.readChildren, Node.readOperand,
      Node.readAll, Node.readLeaf, Json.lookup, Operator.ofTag?, Except.map, filterKey, operatorKey, filterNameKey,
      instructionKey, Side.key, Side.label, value, difference, listing, leaf, location]
  obtain ⟨flaw, reported, flawed, isLocation, same, leads, _, first, _⟩ := rejected_at_first_flaw value _ rejected
  have here : location = reported := by
    cases complaint : flaw.complaint with
    | malformed fault =>
        rw [complaint] at same
        exact (PlanError.malformedNode.inj same).1
    | unsupported tag =>
        rw [complaint] at same
        cases same
  exact ⟨rejected, rfl, flaw, flawed, here.trans isLocation, leads, fun other isOther different =>
    (first other isOther different).1⟩

end Plan

end FilterPlan
