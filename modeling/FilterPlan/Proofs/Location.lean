import FilterPlan.Plan.Document

set_option autoImplicit false

namespace FilterPlan

namespace DocumentStep

-- The order of a document, told of the steps that lead to its nodes from the top: a node stands before what lies
-- inside it, children stand in the order of the array, and the first operand stands before the second.
inductive Before : List DocumentStep → List DocumentStep → Prop where
  | inside (step : DocumentStep) (steps : List DocumentStep) : Before [] (step :: steps)
  | items {i j : Nat} (less : i < j) (p q : List DocumentStep) : Before (.item i :: p) (.item j :: q)
  | operands (p q : List DocumentStep) : Before (.operand .a :: p) (.operand .b :: q)
  | deeper (step : DocumentStep) {p q : List DocumentStep} (before : Before p q) : Before (step :: p) (step :: q)

theorem before_asymm (p q : List DocumentStep) (before : Before p q) : ¬ Before q p := by
  induction before with
  | inside step steps => intro after; cases after
  | items less p q =>
      intro after
      cases after with
      | items more => omega
      | deeper _ _ => omega
  | operands p q => intro after; cases after
  | deeper step _ ih =>
      intro after
      cases after with
      | items less => omega
      | deeper _ inner => exact ih inner

def mark : DocumentStep → List Char
  | .filter => []
  | .item index => '[' :: (Nat.toDigits 10 index ++ [']'])
  | .operand side => side.label.toList

theorem text_mark (step : DocumentStep) : step.text.toList = '.' :: ("filter".toList ++ step.mark) := by
  cases step with
  | filter => rfl
  | item index => simp [text, mark]
  | operand side => cases side <;> rfl

theorem mark_same (step other : DocumentStep) (same : step.mark = other.mark) : step = other := by
  cases step with
  | filter =>
      cases other with
      | filter => rfl
      | item j => cases same
      | operand side => cases side <;> cases same
  | item i =>
      cases other with
      | item j =>
          simp only [mark, List.cons.injEq, true_and, List.append_cancel_right_eq] at same
          have read := congrArg (fun digits => Nat.ofDigitChars 10 digits 0) same
          rw [item.injEq]
          simpa using read
      | filter => cases same
      | operand side => cases side <;> simp [mark, Side.label] at same
  | operand side =>
      cases other with
      | operand otherSide => cases side <;> cases otherSide <;> simp_all [mark, Side.label]
      | filter => cases side <;> cases same
      | item j => cases side <;> simp [mark, Side.label] at same

-- No dot but the first, so the dots of a text tell where its steps begin.
theorem mark_dotless (step : DocumentStep) : ∀ char ∈ "filter".toList ++ step.mark, (char != '.') = true := by
  intro char inside
  rcases List.mem_append.mp inside with word | marked
  · exact List.all_eq_true.mp (by decide : ("filter".toList.all fun char => char != '.') = true) char word
  · cases step with
    | filter => cases marked
    | item index =>
        simp only [mark, List.mem_cons, List.mem_append, List.not_mem_nil, or_false] at marked
        rcases marked with rfl | digit | rfl
        · decide
        · have isDigit := Nat.isDigit_of_mem_toDigits (by decide) (by decide) digit
          by_cases dot : char = '.'
          · subst dot
            cases isDigit
          · simpa using dot
        · decide
    | operand side =>
        have dotless : ((operand side).mark.all fun char => char != '.') = true := by cases side <;> decide
        exact List.all_eq_true.mp dotless char marked

def spelling (steps : List DocumentStep) : List Char := steps.flatMap fun step => step.text.toList

theorem spelling_cons (step : DocumentStep) (steps : List DocumentStep) :
    spelling (step :: steps) = '.' :: ("filter".toList ++ step.mark ++ spelling steps) := by
  rw [spelling, List.flatMap_cons, text_mark]
  rfl

theorem spelling_word (step : DocumentStep) (steps : List DocumentStep) :
    ("filter".toList ++ step.mark ++ spelling steps).takeWhile (· != '.') = "filter".toList ++ step.mark := by
  have stops : (spelling steps).takeWhile (· != '.') = [] := by
    cases steps with
    | nil => rfl
    | cons next rest => simp [spelling_cons]
  rw [List.takeWhile_append_of_pos step.mark_dotless, stops, List.append_nil]

theorem spelling_same (steps others : List DocumentStep) (same : spelling steps = spelling others) :
    steps = others := by
  induction steps generalizing others with
  | nil =>
      cases others with
      | nil => rfl
      | cons other others =>
          rw [spelling_cons] at same
          cases same
  | cons step steps ih =>
      cases others with
      | nil =>
          rw [spelling_cons] at same
          cases same
      | cons other others =>
          rw [spelling_cons, spelling_cons] at same
          have rest := (List.cons.inj same).2
          have words := congrArg (List.takeWhile (· != '.')) rest
          rw [spelling_word, spelling_word] at words
          obtain rfl := mark_same step other (List.append_cancel_left words)
          rw [ih others (List.append_cancel_left rest)]

end DocumentStep

namespace Location

theorem text_spelling (location : Location) :
    location.text.toList = '$' :: DocumentStep.spelling location.reverse := by
  rw [text, String.toList_append, String.toList_join, List.flatMap_map]
  rfl

theorem text_same (location other : Location) (same : location.text = other.text) : location = other := by
  have letters := congrArg String.toList same
  rw [text_spelling, text_spelling] at letters
  exact List.reverse_inj.mp (DocumentStep.spelling_same _ _ (List.cons.inj letters).2)

end Location

namespace Json

def follow : List DocumentStep → Json → Option Json
  | [], value => some value
  | .filter :: steps, .object members => (lookup "filter" members).bind (follow steps)
  | .item index :: steps, .object members =>
      match lookup "filter" members with
      | some (.array items) => items[index]?.bind (follow steps)
      | _ => none
  | .operand .a :: steps, .object members => (lookup "filterA" members).bind (follow steps)
  | .operand .b :: steps, .object members => (lookup "filterB" members).bind (follow steps)
  | _ :: _, _ => none

end Json

end FilterPlan
