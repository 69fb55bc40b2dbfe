import FilterPlan.Proofs.JsonText

set_option autoImplicit false

namespace FilterPlan.Json

-- Blanks and line ends are no tokens, so a text on many lines has the tokens of the text on one line.

theorem tokens_blank (read : List Token) (rest : List Char) : tokensFrom read (' ' :: rest) = tokensFrom read rest := by
  rw [tokensFrom]
  · rfl
  all_goals simp

theorem tokens_newline (read : List Token) (rest : List Char) :
    tokensFrom read ('\n' :: rest) = tokensFrom read rest := by
  rw [tokensFrom]
  · rfl
  all_goals simp

theorem tokens_blanks (read : List Token) (count : Nat) (rest : List Char) :
    tokensFrom read (List.replicate count ' ' ++ rest) = tokensFrom read rest := by
  induction count with
  | zero => rfl
  | succ count ih => rw [List.replicate_succ, List.cons_append, tokens_blank, ih]

theorem tokens_line (read : List Token) (level : Nat) (rest : List Char) :
    tokensFrom read (lineOnto level rest) = tokensFrom read rest := by
  rw [lineOnto, tokens_newline, tokens_blanks]

mutual
theorem tokens_laid_out (read : List Token) (level : Nat) (rest : List Char) : (value : Json) →
    (numberless : value.Numberless) →
    tokensFrom read (prettyOnto level rest value) = tokensFrom (value.listing.reverse ++ read) rest
  | .null, _ => tokens_null read rest
  | .bool true, _ => tokens_true read rest
  | .bool false, _ => tokens_false read rest
  | .number _, numberless => numberless.elim
  | .string text, _ => by rw [prettyOnto, tokens_string, listing]; rfl
  | .array [], _ => by rw [prettyOnto, tokensFrom, tokensFrom, listing]; rfl
  | .array (item :: items), numberless => by
      rw [prettyOnto, tokensFrom, tokens_items_laid_out _ _ _ (item :: items) numberless, tokens_line, tokensFrom, listing]
      · simp
      · simp
  | .object [], _ => by rw [prettyOnto, tokensFrom, tokensFrom, listing]; rfl
  | .object (member :: members), numberless => by
      rw [prettyOnto, tokensFrom, tokens_members_laid_out _ _ _ (member :: members) numberless, tokens_line, tokensFrom,
        listing]
      · simp
      · simp

theorem tokens_items_laid_out (read : List Token) (level : Nat) (rest : List Char) : (items : List Json) →
    (numberless : NumberlessItems items) →
    tokensFrom read (prettyItems level rest items) = tokensFrom ((listingItems items).reverse ++ read) rest
  | [], _ => rfl
  | [item], numberless => by
      rw [prettyItems, tokens_line, tokens_laid_out _ _ _ item numberless.1, listingItems]
  | item :: next :: items, numberless => by
      rw [prettyItems, tokens_line, tokens_laid_out _ _ _ item numberless.1, tokensFrom,
        tokens_items_laid_out _ _ _ (next :: items) numberless.2, listingItems]
      · simp
      · simp

theorem tokens_members_laid_out (read : List Token) (level : Nat) (rest : List Char) :
    (members : List (String × Json)) → (numberless : NumberlessMembers members) →
    tokensFrom read (prettyMembers level rest members) = tokensFrom ((listingMembers members).reverse ++ read) rest
  | [], _ => rfl
  | [(key, value)], numberless => by
      rw [prettyMembers, tokens_line, tokens_string, tokensFrom, tokens_blank, tokens_laid_out _ _ _ value numberless.1,
        listingMembers]
      simp
  | (key, value) :: next :: members, numberless => by
      rw [prettyMembers, tokens_line, tokens_string, tokensFrom, tokens_blank, tokens_laid_out _ _ _ value numberless.1,
        tokensFrom, tokens_members_laid_out _ _ _ (next :: members) numberless.2, listingMembers]
      · simp
      · simp
end

theorem tokens_pretty (value : Json) (numberless : value.Numberless) :
    tokens value.pretty.toList = .ok value.listing := by
  rw [tokens, pretty, String.toList_ofList, tokens_laid_out [] 0 [] value numberless, tokensFrom]
  simp

theorem read_pretty (limit : Nat) (value : Json) (numberless : value.Numberless) :
    read limit value.pretty = if value.depth ≤ limit then .ok value else .error .nestedTooDeep :=
  read_listing limit value.pretty value (tokens_pretty value numberless)

end FilterPlan.Json
