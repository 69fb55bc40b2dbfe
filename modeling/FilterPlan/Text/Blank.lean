set_option autoImplicit false

namespace FilterPlan.Text

-- Code point ranges, both ends included, of the Unicode property `White_Space`.
def blankRanges : List (Nat × Nat) :=
  [(0x09, 0x0D), (0x20, 0x20), (0x85, 0x85), (0xA0, 0xA0), (0x1680, 0x1680), (0x2000, 0x200A),
    (0x2028, 0x2029), (0x202F, 0x202F), (0x205F, 0x205F), (0x3000, 0x3000)]

def isBlank (c : Char) : Bool :=
  blankRanges.any fun range => decide (range.1 ≤ c.toNat) && decide (c.toNat ≤ range.2)

def trimChars (text : List Char) : List Char :=
  ((text.dropWhile isBlank).reverse.dropWhile isBlank).reverse

def trim (text : String) : String := String.ofList (trimChars text.toList)

def splitAtLast? (mark : Char) : List Char → Option (List Char × List Char)
  | [] => none
  | c :: rest =>
      match splitAtLast? mark rest with
      | some (before, after) => some (c :: before, after)
      | none => if c = mark then some ([], rest) else none

def lowerAscii (text : String) : String := text.map Char.toLower

theorem split_at_last_append (mark : Char) (text before after : List Char)
    (cut : splitAtLast? mark text = some (before, after)) : text = before ++ mark :: after := by
  induction text generalizing before with
  | nil => simp [splitAtLast?] at cut
  | cons c rest hypothesis =>
      unfold splitAtLast? at cut
      split at cut
      · rename_i inner tail found
        simp only [Option.some.injEq, Prod.mk.injEq] at cut
        obtain ⟨rfl, rfl⟩ := cut
        rw [hypothesis inner found, List.cons_append]
      · split at cut
        · rename_i same
          simp only [Option.some.injEq, Prod.mk.injEq] at cut
          obtain ⟨rfl, rfl⟩ := cut
          rw [same, List.nil_append]
        · simp at cut

end FilterPlan.Text
