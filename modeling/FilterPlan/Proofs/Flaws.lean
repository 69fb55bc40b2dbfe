import FilterPlan.Proofs.Defects
import FilterPlan.Proofs.Location

set_option autoImplicit false

namespace FilterPlan

inductive Complaint where
  | malformed (fault : NodeFault)
  | unsupported (tag : String)
deriving DecidableEq

def Complaint.at (location : Location) : Complaint → PlanError
  | .malformed fault => .malformedNode location fault
  | .unsupported tag => .unsupportedOperator location tag

theorem Complaint.at_same (location : Location) (complaint other : Complaint)
    (same : complaint.at location = other.at location) : complaint = other := by
  cases complaint <;> cases other <;> simp_all [Complaint.at]

/-- A part of a document with something that is wrong with it, and the steps that lead there from the top. -/
structure Flaw where
  steps : List DocumentStep
  part : Json
  complaint : Complaint

namespace Flaw

def below (step : DocumentStep) (flaw : Flaw) : Flaw := { flaw with steps := step :: flaw.steps }

-- The place that a flaw has in the order of the document. A second operand is missed where it would stand.
def moment (flaw : Flaw) : List DocumentStep :=
  if flaw.complaint = .malformed (.operandMissing .b) then flaw.steps ++ [.operand .b] else flaw.steps

def Before (flaw other : Flaw) : Prop := DocumentStep.Before flaw.moment other.moment

def error (flaw : Flaw) (location : Location) : PlanError := flaw.complaint.at (flaw.steps.reverse ++ location)

@[simp] theorem moment_below (step : DocumentStep) (flaw : Flaw) : (flaw.below step).moment = step :: flaw.moment := by
  rw [moment, moment, below]
  by_cases missing : flaw.complaint = .malformed (.operandMissing .b) <;> simp [missing]

theorem error_below (step : DocumentStep) (flaw : Flaw) (location : Location) :
    (flaw.below step).error location = flaw.error (step :: location) := by
  simp [error, below]

end Flaw

namespace Node

inductive Wrong : Json → Complaint → Prop where
  | notObject {value : Json} (shape : ∀ members, value ≠ .object members) : Wrong value (.malformed .nodeNotObject)
  | operatorNotString {members : List (String × Json)} {value : Json}
      (tagged : Json.lookup "logical_operator" members = some value) (shape : ∀ tag, value ≠ .string tag) :
      Wrong (.object members) (.malformed .operatorNotString)
  | operatorUnknown {members : List (String × Json)} {tag : String}
      (tagged : Json.lookup "logical_operator" members = some (.string tag))
      (unknown : tag ∉ ["AND", "OR", "NOT"]) : Wrong (.object members) (.unsupported tag)
  | childrenMissing {members : List (String × Json)} {operator : Operator} (connective : operator ≠ .not)
      (tagged : Json.lookup "logical_operator" members = some (.string operator.tag))
      (missing : Json.lookup "filter" members = none) :
      Wrong (.object members) (.malformed (.childrenMissing operator))
  | childrenNotArray {members : List (String × Json)} {operator : Operator} {value : Json}
      (connective : operator ≠ .not)
      (tagged : Json.lookup "logical_operator" members = some (.string operator.tag))
      (found : Json.lookup "filter" members = some value) (shape : ∀ items, value ≠ .array items) :
      Wrong (.object members) (.malformed (.childrenNotArray operator))
  | missingA {members : List (String × Json)}
      (tagged : Json.lookup "logical_operator" members = some (.string "NOT"))
      (missing : Json.lookup "filterA" members = none) : Wrong (.object members) (.malformed (.operandMissing .a))
  | missingB {members : List (String × Json)}
      (tagged : Json.lookup "logical_operator" members = some (.string "NOT"))
      (missing : Json.lookup "filterB" members = none) : Wrong (.object members) (.malformed (.operandMissing .b))
  | nameNotString {members : List (String × Json)} {value : Json}
      (plain : Json.lookup "logical_operator" members = none)
      (named : Json.lookup "filter_name" members = some value) (shape : ∀ name, value ≠ .string name) :
      Wrong (.object members) (.malformed .filterNameNotString)
  | textNotString {members : List (String × Json)} {name : String} {value : Json}
      (plain : Json.lookup "logical_operator" members = none)
      (named : Json.lookup "filter_name" members = some (.string name))
      (asked : Json.lookup "instruction" members = some value ∨
        Json.lookup "instruction" members = none ∧ Json.lookup "question" members = some value)
      (shape : ∀ text, value ≠ .string text) : Wrong (.object members) (.malformed .instructionNotString)
  | textMissing {members : List (String × Json)} {name : String}
      (plain : Json.lookup "logical_operator" members = none)
      (named : Json.lookup "filter_name" members = some (.string name))
      (absent : Json.lookup "instruction" members = none) (unasked : Json.lookup "question" members = none) :
      Wrong (.object members) (.malformed .instructionMissing)
  | wrapped {members : List (String × Json)} {before after : List String} {key : String}
      (plain : Json.lookup "logical_operator" members = none)
      (unnamed : Json.lookup "filter_name" members = none)
      (listed : ["AND", "OR", "XOR", "NOT"] = before ++ key :: after)
      (free : ∀ earlier ∈ before, Json.lookup earlier members = none) (held : Json.lookup key members ≠ none) :
      Wrong (.object members) (.unsupported key)
  | unrecognised {members : List (String × Json)} (plain : Json.lookup "logical_operator" members = none)
      (unnamed : Json.lookup "filter_name" members = none)
      (free : ∀ key ∈ ["AND", "OR", "XOR", "NOT"], Json.lookup key members = none) :
      Wrong (.object members) (.malformed .unrecognised)

inductive Located : Json → List DocumentStep → Json → Prop where
  | self (value : Json) : Located value [] value
  | child {members : List (String × Json)} {operator : Operator} {items : List Json} {index : Nat} {item part : Json}
      {steps : List DocumentStep} (connective : operator ≠ .not)
      (tagged : Json.lookup "logical_operator" members = some (.string operator.tag))
      (listed : Json.lookup "filter" members = some (.array items)) (held : items[index]? = some item)
      (below : Located item steps part) : Located (.object members) (.item index :: steps) part
  | operandA {members : List (String × Json)} {value part : Json} {steps : List DocumentStep}
      (tagged : Json.lookup "logical_operator" members = some (.string "NOT"))
      (found : Json.lookup "filterA" members = some value) (below : Located value steps part) :
      Located (.object members) (.operand .a :: steps) part
  | operandB {members : List (String × Json)} {value part : Json} {steps : List DocumentStep}
      (tagged : Json.lookup "logical_operator" members = some (.string "NOT"))
      (found : Json.lookup "filterB" members = some value) (below : Located value steps part) :
      Located (.object members) (.operand .b :: steps) part

structure Flawed (value : Json) (flaw : Flaw) : Prop where
  located : Located value flaw.steps flaw.part
  wrong : Wrong flaw.part flaw.complaint

-- Whatever is wrong with a value by itself is what reading it reports, but that a second operand is missing: that is
-- reported only once the first has been read.
theorem wrong_read (value : Json) (complaint : Complaint) (wrong : Wrong value complaint)
    (early : complaint ≠ .malformed (.operandMissing .b)) (location : Location) :
    read location value = .error (complaint.at location) := by
  cases wrong with
  | notObject shape => exact read_not_object location value shape
  | @operatorNotString members value tagged shape =>
      rw [read_object, operatorKey, tagged]
      cases value with
      | string tag => exact absurd rfl (shape tag)
      | _ => rfl
  | @operatorUnknown members tag tagged unknown =>
      have unread : Operator.ofTag? tag = none := by
        cases read : Operator.ofTag? tag with
        | none => rfl
        | some operator =>
            rw [(Operator.of_tag_iff operator tag).mp read] at unknown
            cases operator <;> simp [Operator.tag] at unknown
      rw [read_object, operatorKey, tagged]
      simp only [readTagged, unread]
      rfl
  | childrenMissing connective tagged missing =>
      obtain ⟨connect, isRead⟩ := read_connective location _ _ connective tagged
      rw [isRead, missing]
      rfl
  | @childrenNotArray members operator value connective tagged found shape =>
      obtain ⟨connect, isRead⟩ := read_connective location _ _ connective tagged
      rw [isRead, found]
      cases value with
      | array items => exact absurd rfl (shape items)
      | _ => rfl
  | missingA tagged missing =>
      rw [read_not location _ tagged, missing]
      rfl
  | missingB tagged missing => exact absurd rfl early
  | @nameNotString members value plain named shape =>
      rw [read_plain location _ plain, readLeaf, filterNameKey, named]
      cases value with
      | string name => exact absurd rfl (shape name)
      | _ => rfl
  | @textNotString members name value plain named asked shape =>
      rw [read_plain location _ plain, readLeaf, filterNameKey, named, instructionKey, questionKey]
      dsimp only
      rw [Option.or_eq_some_iff.mpr asked]
      cases value with
      | string text => exact absurd rfl (shape text)
      | _ => rfl
  | textMissing plain named absent unasked =>
      rw [read_plain location _ plain, readLeaf, filterNameKey, named, instructionKey, questionKey, absent, unasked]
      rfl
  | @wrapped members before after key plain unnamed listed free held =>
      have found : wrapperKeys.find? (fun key => (Json.lookup key members).isSome) = some key := by
        apply List.find?_eq_some_iff_append.mpr
        refine ⟨Option.isSome_iff_ne_none.mpr held, before, after, listed, fun earlier inside => ?_⟩
        rw [free earlier inside]
        rfl
      rw [read_plain location _ plain, readLeaf, filterNameKey, unnamed]
      dsimp only
      rw [found]
      rfl
  | @unrecognised members plain unnamed free =>
      have none : wrapperKeys.find? (fun key => (Json.lookup key members).isSome) = none := by
        apply List.find?_eq_none.mpr
        intro key inside
        rw [free key inside]
        simp
      rw [read_plain location _ plain, readLeaf, filterNameKey, unnamed]
      dsimp only
      rw [none]
      rfl

theorem wrong_spells_nothing (value : Json) (complaint : Complaint) (wrong : Wrong value complaint) (node : Node) :
    ¬ Spells value node := by
  intro spelled
  by_cases early : complaint = .malformed (.operandMissing .b)
  · rw [early] at wrong
    cases wrong with
    | missingB tagged missing => cases spelled <;> simp_all
  · have failed := wrong_read value complaint wrong early []
    rw [read_spelled [] value node spelled] at failed
    cases failed

theorem located_reached (value part : Json) (steps : List DocumentStep) (located : Located value steps part) :
    Reached part value := by
  induction located with
  | self => exact .self
  | @child members operator items index item part steps connective tagged listed held _ ih =>
      have tags : Json.lookup "logical_operator" members = some (.string "AND") ∨
          Json.lookup "logical_operator" members = some (.string "OR") := by
        cases operator with
        | and => exact .inl tagged
        | or => exact .inr tagged
        | not => exact absurd rfl connective
      exact .child tags listed (List.mem_of_getElem? held) ih
  | operandA tagged found _ ih => exact .operand tagged (.inl found) ih
  | operandB tagged found _ ih => exact .operand tagged (.inr found) ih

theorem read_flawless (location : Location) (value : Json) (node : Node) (held : read location value = .ok node)
    (flaw : Flaw) : ¬ Flawed value flaw := by
  intro flawed
  obtain ⟨inner, spelled⟩ := reached_spells flaw.part value node (located_reached _ _ _ flawed.located)
    (read_sound location value node held)
  exact wrong_spells_nothing _ _ flawed.wrong inner spelled

theorem connective_not (members : List (String × Json)) (operator : Operator) (connective : operator ≠ .not)
    (tagged : Json.lookup "logical_operator" members = some (.string operator.tag)) :
    Json.lookup "logical_operator" members ≠ some (.string "NOT") := by
  rw [tagged]
  cases operator with
  | not => exact absurd rfl connective
  | _ => simp [Operator.tag]

theorem flawed_connective (members : List (String × Json)) (operator : Operator) (items : List Json)
    (connective : operator ≠ .not) (tagged : Json.lookup "logical_operator" members = some (.string operator.tag))
    (listed : Json.lookup "filter" members = some (.array items)) (flaw : Flaw)
    (flawed : Flawed (.object members) flaw) :
    ∃ index item inner, items[index]? = some item ∧ Flawed item inner ∧ flaw = inner.below (.item index) := by
  obtain ⟨steps, part, complaint⟩ := flaw
  obtain ⟨located, wrong⟩ := flawed
  dsimp only at located wrong
  cases located with
  | child _ _ held other below =>
      rw [listed] at held
      cases held
      exact ⟨_, _, ⟨_, part, complaint⟩, other, ⟨below, wrong⟩, rfl⟩
  | operandA other _ _ | operandB other _ _ => exact absurd other (connective_not members operator connective tagged)
  | self =>
      exfalso
      have known : operator.tag ∈ ["AND", "OR", "NOT"] := by cases operator <;> simp [Operator.tag]
      cases wrong with
      | notObject shape => exact shape members rfl
      | missingA other _ | missingB other _ => exact connective_not members operator connective tagged other
      | _ => simp_all

theorem flawed_not (members : List (String × Json))
    (tagged : Json.lookup "logical_operator" members = some (.string "NOT")) (flaw : Flaw)
    (flawed : Flawed (.object members) flaw) :
    (Json.lookup "filterA" members = none ∧ flaw = ⟨[], .object members, .malformed (.operandMissing .a)⟩) ∨
      (Json.lookup "filterB" members = none ∧ flaw = ⟨[], .object members, .malformed (.operandMissing .b)⟩) ∨
      (∃ value inner, Json.lookup "filterA" members = some value ∧ Flawed value inner ∧
        flaw = inner.below (.operand .a)) ∨
      ∃ value inner, Json.lookup "filterB" members = some value ∧ Flawed value inner ∧
        flaw = inner.below (.operand .b) := by
  obtain ⟨steps, part, complaint⟩ := flaw
  obtain ⟨located, wrong⟩ := flawed
  dsimp only at located wrong
  cases located with
  | child connective other _ _ _ => exact absurd tagged (connective_not members _ connective other)
  | operandA _ found below => exact .inr (.inr (.inl ⟨_, ⟨_, part, complaint⟩, found, ⟨below, wrong⟩, rfl⟩))
  | operandB _ found below => exact .inr (.inr (.inr ⟨_, ⟨_, part, complaint⟩, found, ⟨below, wrong⟩, rfl⟩))
  | self =>
      cases wrong with
      | notObject shape => exact absurd rfl (shape members)
      | missingA _ missing => exact .inl ⟨missing, rfl⟩
      | missingB _ missing => exact .inr (.inl ⟨missing, rfl⟩)
      | childrenMissing connective other _ | childrenNotArray connective other _ _ =>
          exact absurd tagged (connective_not members _ connective other)
      | _ => simp_all

end Node

end FilterPlan
