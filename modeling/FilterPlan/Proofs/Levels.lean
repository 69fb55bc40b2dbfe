import FilterPlan.Proofs.Brackets

set_option autoImplicit false

namespace FilterPlan

def Event.call? : Event → Option (Path × String × String × Nat)
  | .resolverCalled path filter instruction attempt => some (path, filter, instruction, attempt)
  | _ => none

-- What a journal tells at one level, without anything that is told inside calls of resolvers.
def Journal.own (level : Nat) (journal : Journal) : List Event :=
  (journal.filter fun entry => entry.site.level = level).map Entry.event

namespace Journal

@[simp] theorem own_nil (level : Nat) : own level [] = [] := rfl

@[simp] theorem own_append (level : Nat) (before after : Journal) :
    own level (before ++ after) = own level before ++ own level after := by
  simp [own]

@[simp] theorem own_cons (level : Nat) (entry : Entry) (rest : Journal) :
    own level (entry :: rest) = if entry.site.level = level then entry.event :: own level rest else own level rest := by
  by_cases here : entry.site.level = level <;> simp [own, here]

theorem own_deeper (level : Nat) (journal : Journal) (deeper : ∀ entry ∈ journal, level < entry.site.level) :
    own level journal = [] := by
  rw [own, List.map_eq_nil_iff, List.filter_eq_nil_iff]
  intro entry inside same
  have below := deeper entry inside
  simp only [decide_eq_true_eq] at same
  omega

end Journal

theorem Bracketed.entries_deep {σ : Type} (level : Nat) (journal : Journal) (runs : List (Run σ))
    (bracketed : Bracketed level journal runs) : ∀ entry ∈ journal, level ≤ entry.site.level := by
  induction bracketed with
  | nothing level => simp
  | inner site time event isInner _ ih =>
      intro entry inside
      rcases List.mem_cons.mp inside with rfl | later
      · exact Nat.le_refl _
      · exact ih entry later
  | call site opened closed path filter instruction attempt outcome _ _ ihWithin ihLater =>
      intro entry inside
      simp only [List.mem_cons, List.mem_append] at inside
      rcases inside with rfl | nested | rfl | later
      · exact Nat.le_refl _
      · exact Nat.le_of_succ_le (ihWithin entry nested)
      · exact Nat.le_refl _
      · exact ihLater entry later
  | run run opened closed isJournal _ _ ihWithin ihLater =>
      intro entry inside
      simp only [List.mem_cons, List.mem_append] at inside
      rcases inside with rfl | nested | rfl | later
      · exact Nat.le_refl _
      · exact ihWithin entry nested
      · exact Nat.le_refl _
      · exact ihLater entry later

/-- The engines that plans are evaluated in: one outside a manager, and those of the runs of a manager. -/
inductive Engine.Used {σ : Type} : Engine σ → Prop where
  | alone (config : Config) (deadline : Deadline) : Used ⟨config, deadline, 0, none⟩
  | managed (manager : Manager σ) (query : Query) (depth : Nat) : Used (manager.engineAt query depth)

namespace Engine

variable {σ : Type}

theorem alone_served (config : Config) (deadline : Deadline) (journal : Journal)
    (served : Engine.Served (σ := σ) ⟨config, deadline, 0, none⟩ journal) : journal = [] := by
  cases served with
  | nothing => rfl
  | asked scope inScope => cases inScope
  | entered scope inScope => cases inScope

theorem used_served_deeper (engine : Engine σ) (used : engine.Used) (journal : Journal)
    (served : engine.Served journal) : ∀ entry ∈ journal, engine.level < entry.site.level := by
  cases used with
  | alone config deadline => simp [alone_served config deadline journal served]
  | managed manager query depth =>
      obtain ⟨runs, bracketed, _⟩ := manager.served_kept (Journal.Brackets manager.Owns)
        (Journal.brackets_nothing _) (Journal.brackets_append _) query depth (manager.deeper_brackets query depth)
        journal served
      exact bracketed.entries_deep _ _ _

end Engine

end FilterPlan
