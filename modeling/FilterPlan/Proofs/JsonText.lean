import FilterPlan.Json.Printer
import FilterPlan.Json.Reader

set_option autoImplicit false

namespace FilterPlan.Json

mutual
def listing : Json → List Token
  | .null => [.null]
  | .bool value => [.bool value]
  | .number value => [.number value]
  | .string text => [.string text]
  | .array items => .beginArray :: (listingItems items ++ [.endArray])
  | .object members => .beginObject :: (listingMembers members ++ [.endObject])

def listingItems : List Json → List Token
  | [] => []
  | [item] => listing item
  | item :: next :: items => listing item ++ .comma :: listingItems (next :: items)

def listingMembers : List (String × Json) → List Token
  | [] => []
  | [(key, value)] => .string key :: .colon :: listing value
  | (key, value) :: next :: members =>
      .string key :: .colon :: (listing value ++ .comma :: listingMembers (next :: members))
end

-- How many arrays and objects stand around the innermost value, the outermost one counted.

mutual
def depth : Json → Nat
  | .array items => 1 + depthItems items
  | .object members => 1 + depthMembers members
  | _ => 0

def depthItems : List Json → Nat
  | [] => 0
  | item :: items => max (depth item) (depthItems items)

def depthMembers : List (String × Json) → Nat
  | [] => 0
  | (_, value) :: members => max (depth value) (depthMembers members)
end

mutual
def Numberless : Json → Prop
  | .number _ => False
  | .array items => NumberlessItems items
  | .object members => NumberlessMembers members
  | _ => True

def NumberlessItems : List Json → Prop
  | [] => True
  | item :: items => Numberless item ∧ NumberlessItems items

def NumberlessMembers : List (String × Json) → Prop
  | [] => True
  | (_, value) :: members => Numberless value ∧ NumberlessMembers members
end

theorem digit_hex_digit (value : Nat) (small : value < 16) : Text.digit? 16 (hexDigit value) = some value := by
  have all : ∀ digit : Fin 16, Text.digit? 16 (hexDigit digit.val) = some digit.val := by decide
  exact all ⟨value, small⟩

theorem hex_control (c : Char) (control : c.toNat < 0x20) :
    hex4? '0' '0' (hexDigit (c.toNat / 16)) (hexDigit (c.toNat % 16)) = some c.toNat := by
  have zero : Text.digit? 16 '0' = some 0 := by decide
  rw [hex4?, zero, digit_hex_digit _ (by omega), digit_hex_digit _ (by omega)]
  simp only [Option.some.injEq]
  omega

theorem push_control (read : List Char) (c : Char) (control : c.toNat < 0x20) :
    (Content.text read).pushUnit c.toNat = .text (c :: read) := by
  have notHigh : isHighSurrogate c.toNat = false := by simp [isHighSurrogate]; omega
  have notLow : isLowSurrogate c.toNat = false := by simp [isLowSurrogate]; omega
  simp [Content.pushUnit, notHigh, notLow]

theorem scan_control (read rest : List Char) (c : Char) (control : c.toNat < 0x20) :
    scanString (.text read)
        ('\\' :: 'u' :: '0' :: '0' :: hexDigit (c.toNat / 16) :: hexDigit (c.toNat % 16) :: rest) =
      scanString (.text (c :: read)) rest := by
  rw [scanString, hex_control c control]
  simp only
  rw [push_control read c control]

theorem scan_plain (read rest : List Char) (c : Char) (quote : c ≠ '"') (slash : c ≠ '\\')
    (control : ¬ c.toNat < 0x20) : scanString (.text read) (c :: rest) = scanString (.text (c :: read)) rest := by
  rw [scanString]
  · rw [if_neg control]
    rfl
  · exact quote
  · exact fun _ _ _ _ _ starts _ => slash starts
  · exact fun _ _ starts _ => slash starts

theorem scan_escape (read rest : List Char) (c : Char) :
    scanString (.text read) (escape c ++ rest) = scanString (.text (c :: read)) rest := by
  by_cases short : c ∈ ['"', '\\', '\x08', '\x0C', '\n', '\r', '\t']
  · simp only [List.mem_cons, List.not_mem_nil, or_false] at short
    rcases short with rfl | rfl | rfl | rfl | rfl | rfl | rfl <;> rfl
  · simp only [List.mem_cons, List.not_mem_nil, or_false, not_or] at short
    obtain ⟨quote, slash, backspace, feed, newline, carriage, tab⟩ := short
    unfold escape
    rw [if_neg quote, if_neg slash, if_neg backspace, if_neg feed, if_neg newline, if_neg carriage, if_neg tab]
    by_cases control : c.toNat < 0x20
    · rw [if_pos control]
      exact scan_control read rest c control
    · rw [if_neg control]
      exact scan_plain read rest c quote slash control

theorem scan_written (read text rest : List Char) :
    scanString (.text read) (text.foldr (fun c written => escape c ++ written) ('"' :: rest)) =
      .ok (.string (String.ofList (read.reverse ++ text)), rest) := by
  induction text generalizing read with
  | nil => simp [scanString, Content.token]
  | cons c text ih =>
      rw [List.foldr_cons, scan_escape, ih]
      simp

theorem tokens_string (read : List Token) (text : String) (rest : List Char) :
    tokensFrom read (stringOnto text rest) = tokensFrom (.string text :: read) rest := by
  have scanned := scan_written [] text.toList rest
  rw [stringOnto, tokensFrom]
  split
  · rename_i fault failed
    rw [scanned] at failed
    cases failed
  · rename_i found after held
    rw [scanned] at held
    cases held
    simp

theorem tokens_null (read : List Token) (rest : List Char) :
    tokensFrom read ("null".toList ++ rest) = tokensFrom (.null :: read) rest := by
  change tokensFrom read ('n' :: 'u' :: 'l' :: 'l' :: rest) = _
  rw [tokensFrom]

theorem tokens_true (read : List Token) (rest : List Char) :
    tokensFrom read ("true".toList ++ rest) = tokensFrom (.bool true :: read) rest := by
  change tokensFrom read ('t' :: 'r' :: 'u' :: 'e' :: rest) = _
  rw [tokensFrom]

theorem tokens_false (read : List Token) (rest : List Char) :
    tokensFrom read ("false".toList ++ rest) = tokensFrom (.bool false :: read) rest := by
  change tokensFrom read ('f' :: 'a' :: 'l' :: 's' :: 'e' :: rest) = _
  rw [tokensFrom]

-- Writing a value and cutting the text into tokens gives its listing, whatever follows.

mutual
theorem tokens_written (read : List Token) (rest : List Char) : (value : Json) → (numberless : value.Numberless) →
    tokensFrom read (compactOnto rest value) = tokensFrom (value.listing.reverse ++ read) rest
  | .null, _ => tokens_null read rest
  | .bool true, _ => tokens_true read rest
  | .bool false, _ => tokens_false read rest
  | .number _, numberless => numberless.elim
  | .string text, _ => by rw [compactOnto, tokens_string, listing]; rfl
  | .array items, numberless => by
      rw [compactOnto, tokensFrom, tokens_items _ _ items numberless, tokensFrom, listing]
      simp
  | .object members, numberless => by
      rw [compactOnto, tokensFrom, tokens_members _ _ members numberless, tokensFrom, listing]
      simp

theorem tokens_items (read : List Token) (rest : List Char) : (items : List Json) →
    (numberless : NumberlessItems items) →
    tokensFrom read (compactItems rest items) = tokensFrom ((listingItems items).reverse ++ read) rest
  | [], _ => rfl
  | [item], numberless => tokens_written read rest item numberless.1
  | item :: next :: items, numberless => by
      rw [compactItems, tokens_written _ _ item numberless.1, tokensFrom, tokens_items _ _ (next :: items) numberless.2,
        listingItems]
      · simp
      · simp

theorem tokens_members (read : List Token) (rest : List Char) : (members : List (String × Json)) →
    (numberless : NumberlessMembers members) →
    tokensFrom read (compactMembers rest members) = tokensFrom ((listingMembers members).reverse ++ read) rest
  | [], _ => rfl
  | [(key, value)], numberless => by
      rw [compactMembers, tokens_string, tokensFrom, tokens_written _ _ value numberless.1, listingMembers]
      simp
  | (key, value) :: next :: members, numberless => by
      rw [compactMembers, tokens_string, tokensFrom, tokens_written _ _ value numberless.1, tokensFrom,
        tokens_members _ _ (next :: members) numberless.2, listingMembers]
      · simp
      · simp
end

theorem tokens_compact (value : Json) (numberless : value.Numberless) :
    tokens value.compact.toList = .ok value.listing := by
  rw [tokens, compact, String.toList_ofList, tokens_written [] [] value numberless, tokensFrom]
  simp

theorem run_first_item (frames : List Frame) (item : Json) (rest : List Token) :
    run ⟨frames, .firstItem⟩ (item.listing ++ rest) = run ⟨.list [] :: frames, .value⟩ (item.listing ++ rest) := by
  cases item <;> simp [listing, run, step]

theorem run_first_items (frames : List Frame) (items : List Json) (rest : List Token) (filled : items ≠ []) :
    run ⟨frames, .firstItem⟩ (listingItems items ++ rest) =
      run ⟨.list [] :: frames, .value⟩ (listingItems items ++ rest) := by
  cases items with
  | nil => exact absurd rfl filled
  | cons item items =>
      cases items with
      | nil => exact run_first_item frames item rest
      | cons next items =>
          rw [listingItems, List.append_assoc]
          exact run_first_item frames item _

theorem run_first_members (frames : List Frame) (members : List (String × Json)) (rest : List Token)
    (filled : members ≠ []) :
    run ⟨frames, .firstKey⟩ (listingMembers members ++ rest) =
      run ⟨frames, .key []⟩ (listingMembers members ++ rest) := by
  cases members with
  | nil => exact absurd rfl filled
  | cons member members =>
      obtain ⟨key, value⟩ := member
      cases members <;> simp [listingMembers, run, step]

theorem run_key (frames : List Frame) (read : List (String × Json)) (key : String) (rest : List Token) :
    run ⟨frames, .key read⟩ (.string key :: .colon :: rest) = run ⟨.entry read key :: frames, .value⟩ rest := by
  simp [run, step]

mutual
theorem run_listing (frames : List Frame) (rest : List Token) : (value : Json) →
    run ⟨frames, .value⟩ (value.listing ++ rest) = run ⟨frames, .after value⟩ rest
  | .null | .bool _ | .number _ | .string _ => by simp [listing, run, step, begin]
  | .array items => by
      by_cases empty : items = []
      · simp [empty, listing, listingItems, run, step, begin]
      · have opened : run ⟨frames, .value⟩ ((array items).listing ++ rest) =
            run ⟨frames, .firstItem⟩ (listingItems items ++ .endArray :: rest) := by
          simp [listing, run, step, begin]
        rw [opened, run_first_items _ _ _ empty, run_items frames rest [] items empty]
        rfl
  | .object members => by
      by_cases empty : members = []
      · simp [empty, listing, listingMembers, run, step, begin]
      · have opened : run ⟨frames, .value⟩ ((object members).listing ++ rest) =
            run ⟨frames, .firstKey⟩ (listingMembers members ++ .endObject :: rest) := by
          simp [listing, run, step, begin]
        rw [opened, run_first_members _ _ _ empty, run_members frames rest [] members empty]
        rfl

theorem run_items (frames : List Frame) (rest : List Token) (read : List Json) : (items : List Json) →
    (filled : items ≠ []) →
    run ⟨.list read :: frames, .value⟩ (listingItems items ++ .endArray :: rest) =
      run ⟨frames, .after (.array (read.reverse ++ items))⟩ rest
  | [], filled => absurd rfl filled
  | [item], _ => by
      rw [listingItems, run_listing _ _ item]
      simp [run, step]
  | item :: next :: items, _ => by
      rw [listingItems, List.append_assoc, run_listing _ _ item, List.cons_append, run]
      simp only [step]
      rw [run_items frames rest (item :: read) (next :: items) (List.cons_ne_nil _ _)]
      simp

theorem run_members (frames : List Frame) (rest : List Token) (read : List (String × Json)) :
    (members : List (String × Json)) → (filled : members ≠ []) →
    run ⟨frames, .key read⟩ (listingMembers members ++ .endObject :: rest) =
      run ⟨frames, .after (.object (read.reverse ++ members))⟩ rest
  | [], filled => absurd rfl filled
  | [(key, value)], _ => by
      rw [listingMembers, List.cons_append, List.cons_append, run_key, run_listing _ _ value]
      simp [run, step]
  | (key, value) :: next :: members, _ => by
      rw [listingMembers, List.cons_append, List.cons_append, run_key, List.append_assoc, run_listing _ _ value,
        List.cons_append, run]
      simp only [step]
      rw [run_members frames rest ((key, value) :: read) (next :: members) (List.cons_ne_nil _ _)]
      simp
end

theorem of_tokens_listing (value : Json) : ofTokens value.listing = .ok value := by
  have run := run_listing [] [] value
  rw [List.append_nil] at run
  rw [ofTokens, start, run]
  rfl

theorem nests_cons (limit levels : Nat) (token : Token) (rest : List Token) :
    Token.nestsWithin limit levels (token :: rest) = true ↔
      token.levelsAfter levels ≤ limit ∧ Token.nestsWithin limit (token.levelsAfter levels) rest = true := by
  rw [Token.nestsWithin, Bool.and_eq_true, decide_eq_true_iff]

theorem nests_flat (limit levels : Nat) (room : levels ≤ limit) (token : Token) (rest : List Token)
    (flat : token.levelsAfter levels = levels) :
    Token.nestsWithin limit levels (token :: rest) = true ↔ Token.nestsWithin limit levels rest = true := by
  rw [nests_cons, flat]
  exact and_iff_right room

theorem nests_inside (limit levels inner : Nat) (body rest : List Token) (first last : Token)
    (opens : first.levelsAfter levels = levels + 1) (closes : last.levelsAfter (levels + 1) = levels)
    (nests : levels + 1 ≤ limit → (Token.nestsWithin limit (levels + 1) (body ++ last :: rest) = true ↔
      levels + 1 + inner ≤ limit ∧ Token.nestsWithin limit (levels + 1) (last :: rest) = true)) :
    Token.nestsWithin limit levels (first :: (body ++ [last]) ++ rest) = true ↔
      levels + (1 + inner) ≤ limit ∧ Token.nestsWithin limit levels rest = true := by
  rw [List.cons_append, List.append_assoc, List.cons_append, List.nil_append, nests_cons, opens]
  constructor
  · rintro ⟨room, within⟩
    obtain ⟨deep, later⟩ := (nests room).mp within
    rw [nests_cons, closes] at later
    exact ⟨by omega, later.2⟩
  · rintro ⟨deep, later⟩
    refine ⟨by omega, (nests (by omega)).mpr ⟨by omega, ?_⟩⟩
    rw [nests_cons, closes]
    exact ⟨by omega, later⟩

mutual
theorem listing_nests (limit levels : Nat) (rest : List Token) : (value : Json) →
    (Token.nestsWithin limit levels (value.listing ++ rest) = true ↔
      levels + value.depth ≤ limit ∧ Token.nestsWithin limit levels rest = true)
  | .null | .bool _ | .number _ | .string _ => by simp [listing, depth, nests_cons, Token.levelsAfter]
  | .array items => by
      rw [listing, depth]
      exact nests_inside _ _ _ _ _ _ _ rfl rfl fun room => items_nest limit (levels + 1) room _ items
  | .object members => by
      rw [listing, depth]
      exact nests_inside _ _ _ _ _ _ _ rfl rfl fun room => members_nest limit (levels + 1) room _ members

theorem items_nest (limit levels : Nat) (room : levels ≤ limit) (rest : List Token) : (items : List Json) →
    (Token.nestsWithin limit levels (listingItems items ++ rest) = true ↔
      levels + depthItems items ≤ limit ∧ Token.nestsWithin limit levels rest = true)
  | [] => by simp [listingItems, depthItems, room]
  | [item] => by simp [listingItems, depthItems, listing_nests limit levels rest item]
  | item :: next :: items => by
      rw [listingItems, depthItems, List.append_assoc, listing_nests limit levels _ item, List.cons_append,
        nests_flat _ _ room .comma _ rfl, items_nest limit levels room rest (next :: items)]
      constructor
      · rintro ⟨first, more, later⟩
        exact ⟨by omega, later⟩
      · rintro ⟨both, later⟩
        exact ⟨by omega, by omega, later⟩

theorem members_nest (limit levels : Nat) (room : levels ≤ limit) (rest : List Token) :
    (members : List (String × Json)) →
    (Token.nestsWithin limit levels (listingMembers members ++ rest) = true ↔
      levels + depthMembers members ≤ limit ∧ Token.nestsWithin limit levels rest = true)
  | [] => by simp [listingMembers, depthMembers, room]
  | [(key, value)] => by
      simp only [listingMembers, depthMembers, List.cons_append, Nat.max_zero]
      rw [nests_flat _ _ room (.string key) _ rfl, nests_flat _ _ room .colon _ rfl, listing_nests limit levels rest value]
  | (key, value) :: next :: members => by
      rw [listingMembers, depthMembers, List.cons_append, List.cons_append, List.append_assoc,
        nests_flat _ _ room (.string key) _ rfl, nests_flat _ _ room .colon _ rfl, listing_nests limit levels _ value,
        List.cons_append, nests_flat _ _ room .comma _ rfl, members_nest limit levels room rest (next :: members)]
      constructor
      · rintro ⟨first, more, later⟩
        exact ⟨by omega, later⟩
      · rintro ⟨both, later⟩
        exact ⟨by omega, by omega, later⟩
end

theorem read_listing (limit : Nat) (text : String) (value : Json) (cut : tokens text.toList = .ok value.listing) :
    read limit text = if value.depth ≤ limit then .ok value else .error .nestedTooDeep := by
  have nests := listing_nests limit 0 [] value
  rw [List.append_nil, Nat.zero_add] at nests
  rw [read, cut]
  simp only [ofTokensWithin]
  by_cases within : value.depth ≤ limit
  · rw [if_pos (nests.mpr ⟨within, rfl⟩), if_pos within, of_tokens_listing]
  · rw [if_neg fun held => within (nests.mp held).1, if_neg within]

theorem read_compact (limit : Nat) (value : Json) (numberless : value.Numberless) :
    read limit value.compact = if value.depth ≤ limit then .ok value else .error .nestedTooDeep :=
  read_listing limit value.compact value (tokens_compact value numberless)

end FilterPlan.Json
