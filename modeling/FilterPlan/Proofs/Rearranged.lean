import FilterPlan.Proofs.Missing
import FilterPlan.Proofs.Value
import Mathlib.Logic.Relation

set_option autoImplicit false

namespace FilterPlan

theorem meet_nested (before inner after : List (Set Identity)) :
    meet (before ++ ((meet inner).toList ++ after)) = meet (before ++ (inner ++ after)) := by
  by_cases nothing : inner = []
  · simp [nothing, meet]
  · rw [meet, meet, meet, if_neg nothing, if_neg (by simp), if_neg (by simp [nothing])]
    simp [or_imp, forall_and]

theorem join_nested (before inner after : List (Set Identity)) :
    join (before ++ ((join inner).toList ++ after)) = join (before ++ (inner ++ after)) := by
  by_cases nothing : inner = []
  · simp [nothing, join]
  · rw [join, join, join, if_neg nothing, if_neg (by simp), if_neg (by simp [nothing])]
    simp [or_and_right, exists_or]

theorem meet_single (set : Option (Set Identity)) : meet set.toList = set := by
  cases set <;> simp [meet]

theorem join_single (set : Option (Set Identity)) : join set.toList = set := by
  cases set <;> simp [join]

namespace Node

/-- The rewrites that change nothing but the arrangement of a plan, one at a time and at any depth. -/
inductive Rewrites : Node → Node → Prop where
  | permuteAnd {children others : List Node} (same : children.Perm others) : Rewrites (.and children) (.and others)
  | permuteOr {children others : List Node} (same : children.Perm others) : Rewrites (.or children) (.or others)
  | singleAnd (child : Node) : Rewrites (.and [child]) child
  | singleOr (child : Node) : Rewrites (.or [child]) child
  | spliceAnd (before inner after : List Node) :
      Rewrites (.and (before ++ .and inner :: after)) (.and (before ++ (inner ++ after)))
  | spliceOr (before inner after : List Node) :
      Rewrites (.or (before ++ .or inner :: after)) (.or (before ++ (inner ++ after)))
  | insideAnd (before after : List Node) {child other : Node} (rewrites : Rewrites child other) :
      Rewrites (.and (before ++ child :: after)) (.and (before ++ other :: after))
  | insideOr (before after : List Node) {child other : Node} (rewrites : Rewrites child other) :
      Rewrites (.or (before ++ child :: after)) (.or (before ++ other :: after))
  | insideA {a other : Node} (b : Node) (rewrites : Rewrites a other) : Rewrites (.not a b) (.not other b)
  | insideB (a : Node) {b other : Node} (rewrites : Rewrites b other) : Rewrites (.not a b) (.not a other)

def Rearranged : Node → Node → Prop := Relation.EqvGen Rewrites

theorem rearranged_kept {α : Type} (property : Node → α) (kept : ∀ m n, Rewrites m n → property m = property n)
    (m n : Node) (rearranged : m.Rearranged n) : property m = property n := by
  induction rearranged with
  | rel m n rewrites => exact kept m n rewrites
  | refl m => rfl
  | symm m n _ ih => exact ih.symm
  | trans m n o _ _ first second => exact first.trans second

section Value

variable (answer : Leaf → Option (Set Identity))

theorem values_among_append (before after : List Node) :
    valuesAmong answer (before ++ after) = valuesAmong answer before ++ valuesAmong answer after := by
  induction before with
  | nil => rfl
  | cons child rest ih =>
      rw [List.cons_append, valuesAmong, valuesAmong, ih]
      cases child.value answer <;> rfl

theorem values_among_cons (child : Node) (rest : List Node) :
    valuesAmong answer (child :: rest) = (child.value answer).toList ++ valuesAmong answer rest := by
  rw [valuesAmong]
  cases child.value answer <;> rfl

theorem rewrites_value (m n : Node) (rewrites : m.Rewrites n) : m.value answer = n.value answer := by
  induction rewrites with
  | permuteAnd same =>
      rw [value, value]
      exact meet_same _ _ fun set => by simp only [mem_values_among, same.mem_iff]
  | permuteOr same =>
      rw [value, value]
      exact join_same _ _ fun set => by simp only [mem_values_among, same.mem_iff]
  | singleAnd child => rw [value, values_among_cons, valuesAmong, List.append_nil, meet_single]
  | singleOr child => rw [value, values_among_cons, valuesAmong, List.append_nil, join_single]
  | spliceAnd before inner after =>
      rw [value, value, values_among_append, values_among_cons, value, meet_nested, values_among_append,
        values_among_append]
  | spliceOr before inner after =>
      rw [value, value, values_among_append, values_among_cons, value, join_nested, values_among_append,
        values_among_append]
  | insideAnd before after _ ih | insideOr before after _ ih =>
      rw [value, value, values_among_append, values_among_cons, ih, values_among_append, values_among_cons]
  | insideA b _ ih | insideB a _ ih => rw [value, value, ih]

/-- Some NOT in the tree has an operand that is absent beside one that is not. -/
inductive Halved : Node → Prop where
  | here {a b : Node} (half : (a.value answer).isSome ≠ (b.value answer).isSome) : Halved (.not a b)
  | and {children : List Node} {child : Node} (inside : child ∈ children) (below : Halved child) :
      Halved (.and children)
  | or {children : List Node} {child : Node} (inside : child ∈ children) (below : Halved child) : Halved (.or children)
  | operandA {a b : Node} (below : Halved a) : Halved (.not a b)
  | operandB {a b : Node} (below : Halved b) : Halved (.not a b)

@[simp] theorem halved_leaf (found : Leaf) : ¬ Halved answer (.leaf found) := by
  intro halved
  cases halved

@[simp] theorem halved_and (children : List Node) :
    Halved answer (.and children) ↔ ∃ child ∈ children, Halved answer child := by
  constructor
  · intro halved
    cases halved with
    | and inside below => exact ⟨_, inside, below⟩
  · rintro ⟨child, inside, below⟩
    exact .and inside below

@[simp] theorem halved_or (children : List Node) :
    Halved answer (.or children) ↔ ∃ child ∈ children, Halved answer child := by
  constructor
  · intro halved
    cases halved with
    | or inside below => exact ⟨_, inside, below⟩
  · rintro ⟨child, inside, below⟩
    exact .or inside below

@[simp] theorem halved_not (a b : Node) :
    Halved answer (.not a b) ↔
      (a.value answer).isSome ≠ (b.value answer).isSome ∨ Halved answer a ∨ Halved answer b := by
  constructor
  · intro halved
    cases halved with
    | here half => exact .inl half
    | operandA below => exact .inr (.inl below)
    | operandB below => exact .inr (.inr below)
  · rintro (half | below | below)
    · exact .here half
    · exact .operandA below
    · exact .operandB below

theorem rewrites_halved (m n : Node) (rewrites : m.Rewrites n) : Halved answer m ↔ Halved answer n := by
  induction rewrites with
  | permuteAnd same | permuteOr same => simp [same.mem_iff]
  | singleAnd child | singleOr child => simp
  | spliceAnd before inner after | spliceOr before inner after => simp [or_and_right, exists_or]
  | insideAnd before after _ ih | insideOr before after _ ih => simp [or_and_right, exists_or, ih]
  | insideA b rewrites ih => simp [rewrites_value answer _ _ rewrites, ih]
  | insideB a rewrites ih => simp [rewrites_value answer _ _ rewrites, ih]

end Value

section Results

theorem exists_sibling (children : List Node) (property : Node → Prop) :
    (∃ slot ∈ siblingSlots [] children, property slot.child) ↔ ∃ child ∈ children, property child := by
  conv_rhs => rw [← sibling_slots_children [] children]
  simp

variable (answer : Leaf → Option IdentitySet)

theorem parts_lacking (rows : PlacedLeaf → Option IdentitySet) (node : Node) :
    (∃ part ∈ node.parts, ∃ side, part.LacksOnly (node.results rows) side) ↔
      (∃ side, Part.LacksOnly (node.results rows) ⟨[], node⟩ side) ∨
        ∃ slot ∈ node.slots, ∃ part ∈ slot.child.parts, ∃ side, part.LacksOnly (slot.results rows) side := by
  rw [parts_slots]
  constructor
  · rintro ⟨part, inside, side, lacks⟩
    rcases List.mem_cons.mp inside with rfl | inside
    · exact .inl ⟨side, lacks⟩
    · obtain ⟨slot, known, listed⟩ := List.mem_flatMap.mp inside
      obtain ⟨inner, isPart, rfl⟩ := List.mem_map.mp listed
      exact .inr ⟨slot, known, inner, isPart, side, (lacks_only_below rows node slot known inner side).mp lacks⟩
  · rintro (⟨side, lacks⟩ | ⟨slot, known, inner, isPart, side, lacks⟩)
    · exact ⟨_, List.mem_cons_self, side, lacks⟩
    · exact ⟨inner.below slot.steps,
        List.mem_cons_of_mem _ (List.mem_flatMap.mpr ⟨slot, known, List.mem_map_of_mem isPart⟩), side,
        (lacks_only_below rows node slot known inner side).mpr lacks⟩

theorem top_halved (a b : Node) :
    (∃ side, Part.LacksOnly ((Node.not a b).results (rowsOf answer)) ⟨[], .not a b⟩ side) ↔
      (a.value (answers answer)).isSome ≠ (b.value (answers answer)).isSome := by
  have lacksA := lacks_top (rowsOf answer) a b ⟨.operand .a, [.first a.kind], a⟩ (by simp [slots]) .a rfl
  have lacksB := lacks_top (rowsOf answer) a b ⟨.operand .b, [.first b.kind], b⟩ (by simp [slots]) .b rfl
  have absentA := absent_nothing answer a
  have absentB := absent_nothing answer b
  change _ ↔ a.results (rowsOf answer) = [] at lacksA
  change _ ↔ b.results (rowsOf answer) = [] at lacksB
  rw [← absentA] at lacksA
  rw [← absentB] at lacksB
  constructor
  · rintro ⟨_ | _, lacks⟩
    · rw [Part.LacksOnly, lacksA, Side.other, lacksB] at lacks
      rw [lacks.1, Option.isSome_iff_ne_none.mpr lacks.2]
      simp
    · rw [Part.LacksOnly, lacksB, Side.other, lacksA] at lacks
      rw [lacks.1, Option.isSome_iff_ne_none.mpr lacks.2]
      simp
  · intro half
    cases valueA : a.value (answers answer) with
    | none =>
        refine ⟨.a, lacksA.mpr valueA, fun lacks => ?_⟩
        simp [valueA, lacksB.mp lacks] at half
    | some set =>
        refine ⟨.b, lacksB.mpr ?_, fun lacks => ?_⟩
        · simpa [valueA] using half
        · rw [lacksA.mp lacks] at valueA
          cases valueA

theorem lacking_halved (node : Node) :
    (∃ part ∈ node.parts, ∃ side, part.LacksOnly (node.results (rowsOf answer)) side) ↔
      Halved (answers answer) node := by
  induction node using induct_slots with
  | leaf found =>
      rw [parts_lacking]
      simp [slots, parts_lack]
  | operator node inner ih =>
      have below : (∃ slot ∈ node.slots, ∃ part ∈ slot.child.parts, ∃ side,
          part.LacksOnly (slot.results (rowsOf answer)) side) ↔
            ∃ slot ∈ node.slots, Halved (answers answer) slot.child :=
        exists_congr fun slot => and_congr_right fun known => ih slot known
      rw [parts_lacking, below]
      cases node with
      | leaf found => simp [operator?] at inner
      | and children | or children => simp [parts_lack, slots, exists_sibling]
      | not a b =>
          rw [top_halved, halved_not]
          simp [slots]

end Results

end Node

end FilterPlan
