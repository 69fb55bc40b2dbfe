import FilterPlan.Plan.Trail

set_option autoImplicit false

namespace FilterPlan

namespace Trail

-- Parents stand before their children, so every climb ends at the top.
def Grounded (trail : Trail) : Prop :=
  ∀ (place parent : Nat) (segment : Segment), trail.links[place]? = some (some parent, segment) → parent < place

def Holds (trail : Trail) (start : Option Nat) : Prop :=
  ∀ place, start = some place → place < trail.links.size

theorem empty_grounded : empty.Grounded := by
  intro place parent segment linked
  simp [empty] at linked

theorem holds_top (trail : Trail) : trail.Holds none := by
  intro place start
  simp at start

theorem holds_place (trail : Trail) (place : Nat) : trail.Holds (some place) ↔ place < trail.links.size := by
  simp [Holds]

theorem climb_below (trail : Trail) (moves : Nat) (start : Option Nat) (below : Path) :
    trail.climb moves start below = (trail.climb moves start []).map (· ++ below) := by
  induction moves generalizing start below with
  | zero => cases start <;> simp [climb]
  | succ moves ih =>
      cases start with
      | none => simp [climb]
      | some place =>
          simp only [climb]
          cases trail.links[place]? with
          | none => simp
          | some link =>
              obtain ⟨parent, segment⟩ := link
              simp only
              rw [ih parent (segment :: below), ih parent [segment]]
              cases trail.climb moves parent [] <;> simp

-- A climb from an entry takes at most one move for it and one for each entry before it.
theorem climb_enough (trail : Trail) (grounded : trail.Grounded) (place moves : Nat) (below : Path)
    (enough : place < moves) :
    trail.climb moves (some place) below = trail.climb (place + 1) (some place) below := by
  induction place using Nat.strongRecOn generalizing moves below with
  | ind place ih =>
      obtain ⟨more, rfl⟩ : ∃ more, moves = more + 1 := ⟨moves - 1, by omega⟩
      simp only [climb]
      cases linked : trail.links[place]? with
      | none => rfl
      | some link =>
          obtain ⟨parent, segment⟩ := link
          cases parent with
          | none => simp [climb]
          | some parent =>
              have earlier := grounded place parent segment linked
              simp only
              rw [ih parent earlier more (segment :: below) (by omega),
                ih parent earlier place (segment :: below) earlier]

theorem climb_arrives (trail : Trail) (grounded : trail.Grounded) (place moves : Nat) (below : Path)
    (enough : place < moves) : ∃ path, trail.climb moves (some place) below = some path := by
  induction place using Nat.strongRecOn generalizing moves below with
  | ind place ih =>
      obtain ⟨more, rfl⟩ : ∃ more, moves = more + 1 := ⟨moves - 1, by omega⟩
      simp only [climb]
      cases linked : trail.links[place]? with
      | none => exact ⟨below, rfl⟩
      | some link =>
          obtain ⟨parent, segment⟩ := link
          cases parent with
          | none => exact ⟨segment :: below, by simp [climb]⟩
          | some parent =>
              have earlier := grounded place parent segment linked
              exact ih parent earlier more (segment :: below) (by omega)

theorem path_base (trail : Trail) (base : Path) (place : Nat) :
    trail.path base place = base ++ trail.spot (some place) := by
  simp [spot, path]

theorem climb_spot (trail : Trail) (grounded : trail.Grounded) (place moves : Nat) (enough : place < moves)
    (inside : place < trail.links.size) : trail.climb moves (some place) [] = some (trail.spot (some place)) := by
  obtain ⟨path, arrived⟩ := climb_arrives trail grounded place moves [] enough
  have sooner := climb_enough trail grounded place moves [] enough
  have later := climb_enough trail grounded place (trail.links.size + 1) [] (by omega)
  rw [spot, Trail.path, later.trans sooner.symm, arrived]
  simp

theorem spot_link (trail : Trail) (grounded : trail.Grounded) (place : Nat) (parent : Option Nat)
    (segment : Segment) (linked : trail.links[place]? = some (parent, segment)) :
    trail.spot (some place) = trail.spot parent ++ [segment] := by
  have inside : place < trail.links.size := (Array.getElem?_eq_some_iff.mp linked).1
  rw [spot, Trail.path, climb, linked]
  simp only [List.nil_append]
  rw [climb_below]
  cases parent with
  | none => cases trail.links.size <;> simp [climb, spot]
  | some parent =>
      have earlier := grounded place parent segment linked
      rw [climb_spot trail grounded parent trail.links.size (by omega) (by omega)]
      rfl

structure Extends (older newer : Trail) : Prop where
  grounded : newer.Grounded
  holds : ∀ start, older.Holds start → newer.Holds start
  same : ∀ start, older.Holds start → newer.spot start = older.spot start

theorem extends_trans (a b c : Trail) (ab : a.Extends b) (bc : b.Extends c) : a.Extends c := by
  refine ⟨bc.grounded, fun start held => bc.holds start (ab.holds start held), fun start held => ?_⟩
  rw [bc.same start (ab.holds start held), ab.same start held]

theorem push_older (trail : Trail) (parent : Option Nat) (segment : Segment) (place : Nat)
    (inside : place < trail.links.size) :
    (trail.push parent segment).1.links[place]? = trail.links[place]? := by
  simp only [push]
  rw [Array.getElem?_push_lt inside, Array.getElem?_eq_getElem inside]

theorem push_newest (trail : Trail) (parent : Option Nat) (segment : Segment) :
    (trail.push parent segment).1.links[(trail.push parent segment).2]? = some (parent, segment) := by
  simp [push]

theorem push_grounded (trail : Trail) (parent : Option Nat) (segment : Segment) (grounded : trail.Grounded)
    (held : trail.Holds parent) : (trail.push parent segment).1.Grounded := by
  intro place above step linked
  have inside : place < trail.links.size + 1 := by
    simpa [push] using (Array.getElem?_eq_some_iff.mp linked).1
  by_cases newest : place = trail.links.size
  · subst newest
    have entry := push_newest trail parent segment
    simp only [push] at linked entry
    rw [linked] at entry
    simp only [Option.some.injEq, Prod.mk.injEq] at entry
    exact held above entry.1.symm
  · rw [push_older trail parent segment place (by omega)] at linked
    exact grounded place above step linked

theorem push_extends (trail : Trail) (parent : Option Nat) (segment : Segment) (grounded : trail.Grounded)
    (held : trail.Holds parent) : trail.Extends (trail.push parent segment).1 := by
  have pushed := push_grounded trail parent segment grounded held
  refine ⟨pushed, fun start inside place started => ?_, fun start inside => ?_⟩
  · have := inside place started
    simp only [push, Array.size_push]
    omega
  · cases start with
    | none => rfl
    | some place =>
        have inside := (holds_place trail place).mp inside
        induction place using Nat.strongRecOn with
        | ind place ih =>
            cases linked : trail.links[place]? with
            | none =>
                have := Array.getElem?_eq_none_iff.mp linked
                omega
            | some link =>
                obtain ⟨above, step⟩ := link
                have kept := (push_older trail parent segment place inside).trans linked
                rw [spot_link _ pushed place above step kept, spot_link trail grounded place above step linked]
                cases above with
                | none => rfl
                | some above =>
                    have earlier := grounded place above step linked
                    have outside : above < trail.links.size := by omega
                    rw [ih above earlier ((holds_place trail above).mpr outside) outside]

theorem push_spot (trail : Trail) (parent : Option Nat) (segment : Segment) (grounded : trail.Grounded)
    (held : trail.Holds parent) :
    (trail.push parent segment).1.spot (some (trail.push parent segment).2) = trail.spot parent ++ [segment] := by
  have extended := push_extends trail parent segment grounded held
  rw [spot_link _ extended.grounded _ parent segment (push_newest trail parent segment), extended.same parent held]

theorem push_holds (trail : Trail) (parent : Option Nat) (segment : Segment) :
    (trail.push parent segment).1.Holds (some (trail.push parent segment).2) := by
  simp [holds_place, push]

end Trail

end FilterPlan
