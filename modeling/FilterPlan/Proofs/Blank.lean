import FilterPlan.Text.Blank
import Mathlib.Data.List.TakeWhile

set_option autoImplicit false

namespace FilterPlan

namespace Text

def beginsBlank (text : List Char) : Bool := text.head?.any isBlank

def endsBlank (text : List Char) : Bool := text.getLast?.any isBlank

theorem ends_blank_reverse (text : List Char) : endsBlank text.reverse = beginsBlank text := by
  rw [endsBlank, beginsBlank, List.getLast?_reverse]

theorem begins_blank_append (text rest : List Char) (exist : text ≠ []) :
    beginsBlank (text ++ rest) = beginsBlank text := by
  cases text with
  | nil => cases exist rfl
  | cons c others => rfl

theorem ends_blank_append (before text : List Char) (exist : text ≠ []) :
    endsBlank (before ++ text) = endsBlank text := by
  have reversed : text.reverse ≠ [] := mt List.reverse_eq_nil_iff.mp exist
  rw [← List.reverse_reverse text, ← List.reverse_reverse before, ← List.reverse_append, ends_blank_reverse,
    ends_blank_reverse, begins_blank_append _ _ reversed]

theorem drop_blank_begins (text : List Char) : beginsBlank (text.dropWhile isBlank) = false := by
  have first := List.head?_dropWhile_not isBlank text
  rw [beginsBlank]
  cases found : (text.dropWhile isBlank).head? with
  | none => rfl
  | some c =>
      rw [found] at first
      exact first

theorem drop_blank_same (text : List Char) (bare : beginsBlank text = false) : text.dropWhile isBlank = text := by
  cases text with
  | nil => rfl
  | cons c rest =>
      have solid : ¬ isBlank c = true := by simpa [beginsBlank] using bare
      exact List.dropWhile_cons_of_neg solid

theorem trim_begins (text : List Char) : beginsBlank (trimChars text) = false := by
  have cut : trimChars text <+: text.dropWhile isBlank := by
    rw [trimChars, ← List.reverse_suffix, List.reverse_reverse]
    exact List.dropWhile_suffix isBlank
  by_cases nothing : trimChars text = []
  · rw [nothing]
    rfl
  · obtain ⟨rest, isWhole⟩ := cut
    rw [← begins_blank_append _ rest nothing, isWhole]
    exact drop_blank_begins text

theorem trim_ends (text : List Char) : endsBlank (trimChars text) = false := by
  rw [trimChars, ends_blank_reverse]
  exact drop_blank_begins _

theorem trim_same_iff (text : List Char) :
    trimChars text = text ↔ beginsBlank text = false ∧ endsBlank text = false := by
  constructor
  · intro same
    rw [← same]
    exact ⟨trim_begins text, trim_ends text⟩
  · intro bare
    have reversed : beginsBlank text.reverse = false := by
      rw [← ends_blank_reverse, List.reverse_reverse]
      exact bare.2
    rw [trimChars, drop_blank_same text bare.1, drop_blank_same _ reversed, List.reverse_reverse]

theorem trim_within (text : List Char) : ∃ before after, text = before ++ trimChars text ++ after ∧
    ∀ c ∈ before ++ after, isBlank c = true := by
  let rest := (text.dropWhile isBlank).reverse
  have front : text.takeWhile isBlank ++ text.dropWhile isBlank = text := List.takeWhile_append_dropWhile
  have back : trimChars text ++ (rest.takeWhile isBlank).reverse = text.dropWhile isBlank := by
    rw [trimChars, ← List.reverse_append, List.takeWhile_append_dropWhile, List.reverse_reverse]
  refine ⟨text.takeWhile isBlank, (rest.takeWhile isBlank).reverse, ?_, fun c inside => ?_⟩
  · rw [List.append_assoc, back, front]
  · rcases List.mem_append.mp inside with taken | taken
    · exact List.mem_takeWhile_imp taken
    · exact List.mem_takeWhile_imp (List.mem_reverse.mp taken)

theorem split_at_last_none (mark : Char) (text : List Char) : splitAtLast? mark text = none ↔ mark ∉ text := by
  induction text with
  | nil => simp [splitAtLast?]
  | cons c rest ih =>
      rw [splitAtLast?]
      cases found : splitAtLast? mark rest with
      | some parts =>
          have inside : mark ∈ rest := by
            apply Decidable.byContradiction
            intro absent
            rw [ih.mpr absent] at found
            cases found
          simp [inside]
      | none =>
          have absent := ih.mp found
          by_cases here : c = mark
          · simp [here]
          · simp [here, Ne.symm here, absent]

theorem split_at_last_cut (mark : Char) (before after : List Char) (last : mark ∉ after) :
    splitAtLast? mark (before ++ mark :: after) = some (before, after) := by
  induction before with
  | nil =>
      rw [List.nil_append, splitAtLast?, (split_at_last_none mark after).mpr last]
      exact if_pos rfl
  | cons c rest ih => rw [List.cons_append, splitAtLast?, ih]

theorem split_at_last_after (mark : Char) (text before after : List Char)
    (cut : splitAtLast? mark text = some (before, after)) : mark ∉ after := by
  induction text generalizing before with
  | nil => cases cut
  | cons c rest ih =>
      rw [splitAtLast?] at cut
      cases found : splitAtLast? mark rest with
      | some parts =>
          rw [found] at cut
          obtain ⟨_, isAfter⟩ := Prod.mk.inj (Option.some.inj cut)
          rw [← isAfter] at ih ⊢
          exact ih parts.1 found
      | none =>
          rw [found] at cut
          by_cases here : c = mark
          · obtain ⟨_, isAfter⟩ := Prod.mk.inj (Option.some.inj ((if_pos here).symm.trans cut))
            rw [← isAfter]
            exact (split_at_last_none mark rest).mp found
          · cases (if_neg here).symm.trans cut

-- A text is cut at its last mark, and in no other way.
theorem split_at_last_iff (mark : Char) (text before after : List Char) :
    splitAtLast? mark text = some (before, after) ↔ text = before ++ mark :: after ∧ mark ∉ after := by
  constructor
  · intro cut
    exact ⟨split_at_last_append mark text before after cut, split_at_last_after mark text before after cut⟩
  · intro parts
    rw [parts.1]
    exact split_at_last_cut mark before after parts.2

end Text

end FilterPlan
