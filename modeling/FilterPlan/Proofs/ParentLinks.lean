import FilterPlan.Proofs.StackMerge
import FilterPlan.Proofs.Vetting
import Mathlib.Data.List.Induction

set_option autoImplicit false

namespace FilterPlan

namespace Trail

structure Call where
  parent : Option Nat
  segment : Segment
  index : Nat
deriving DecidableEq

structure Log where
  trail : Trail
  calls : List Call

namespace Log

def empty : Log := ⟨.empty, []⟩

def push (log : Log) (parent : Option Nat) (segment : Segment) : Log :=
  ⟨(log.trail.push parent segment).1, log.calls ++ [⟨parent, segment, (log.trail.push parent segment).2⟩]⟩

def Knows (log : Log) (parent : Option Nat) : Prop :=
  ∀ index, parent = some index → ∃ call ∈ log.calls, call.index = index

-- Any number of pushes, each below what is known by then.
inductive Grows (log : Log) : Log → Prop where
  | same : Grows log log
  | push (later : Log) (parent : Option Nat) (segment : Segment) (grown : Grows log later)
      (known : later.Knows parent) : Grows log (later.push parent segment)

inductive Chain (log : Log) : Option Nat → Path → Prop where
  | top : Chain log none []
  | link (parent : Option Nat) (segment : Segment) (index : Nat) (above : Path)
      (made : ⟨parent, segment, index⟩ ∈ log.calls) (chain : Chain log parent above) :
      Chain log (some index) (above ++ [segment])

structure Sound (log : Log) : Prop where
  grounded : log.trail.Grounded
  linked : ∀ call : Call, call ∈ log.calls ↔ log.trail.links[call.index]? = some (call.parent, call.segment)

theorem empty_sound : empty.Sound := ⟨empty_grounded, by simp [empty, Trail.empty]⟩

theorem knows_iff (log : Log) (sound : log.Sound) (parent : Option Nat) :
    log.Knows parent ↔ log.trail.Holds parent := by
  constructor
  · intro known index isIndex
    obtain ⟨call, made, same⟩ := known index isIndex
    rw [← same]
    exact (Array.getElem?_eq_some_iff.mp ((sound.linked call).mp made)).1
  · intro held index isIndex
    have inside := held index isIndex
    exact ⟨⟨log.trail.links[index].1, log.trail.links[index].2, index⟩,
      (sound.linked _).mpr (Array.getElem?_eq_getElem inside), rfl⟩

theorem push_sound (log : Log) (sound : log.Sound) (parent : Option Nat) (segment : Segment)
    (known : log.Knows parent) : (log.push parent segment).Sound := by
  have held := (log.knows_iff sound parent).mp known
  refine ⟨push_grounded log.trail parent segment sound.grounded held, fun call => ?_⟩
  have newest := push_newest log.trail parent segment
  rw [push, List.mem_append, List.mem_singleton, sound.linked call]
  by_cases older : call.index < log.trail.links.size
  · have different : call ≠ ⟨parent, segment, (log.trail.push parent segment).2⟩ := by
      intro same
      rw [same] at older
      exact Nat.lt_irrefl _ older
    rw [or_iff_left different, push_older log.trail parent segment call.index older]
  · have absent : log.trail.links[call.index]? = none := by simpa using older
    rw [absent]
    by_cases last : call.index = log.trail.links.size
    · obtain ⟨above, step, index⟩ := call
      simp only at last
      subst last
      change _ ↔ (log.trail.push parent segment).1.links[(log.trail.push parent segment).2]? = some (above, step)
      rw [newest]
      simp [Trail.push, eq_comm]
    · have beyond : (log.trail.push parent segment).1.links[call.index]? = none := by
        simp only [Trail.push, Array.getElem?_eq_none_iff, Array.size_push]
        omega
      have different : call ≠ ⟨parent, segment, (log.trail.push parent segment).2⟩ := by
        intro same
        exact last (by rw [same]; rfl)
      simp [beyond, different]

theorem grows_sound (log later : Log) (sound : log.Sound) (grown : log.Grows later) :
    later.Sound ∧ log.trail.Extends later.trail := by
  induction grown with
  | same => exact ⟨sound, sound.grounded, fun _ held => held, fun _ _ => rfl⟩
  | push later parent segment grown known ih =>
      obtain ⟨laterSound, extended⟩ := ih
      have held := (later.knows_iff laterSound parent).mp known
      exact ⟨later.push_sound laterSound parent segment known, extends_trans _ _ _ extended
        (push_extends later.trail parent segment laterSound.grounded held)⟩

theorem chain_spot (log : Log) (sound : log.Sound) (start : Option Nat) (path : Path) (chain : log.Chain start path) :
    path = log.trail.spot start := by
  induction chain with
  | top => rfl
  | link parent segment index above made chain ih =>
      rw [spot_link log.trail sound.grounded index parent segment ((sound.linked ⟨parent, segment, index⟩).mp made), ih]

theorem spot_chain (log : Log) (sound : log.Sound) (index : Nat) (inside : index < log.trail.links.size) :
    log.Chain (some index) (log.trail.spot (some index)) := by
  induction index using Nat.strongRecOn with
  | ind index ih =>
      obtain ⟨⟨parent, segment⟩, linked⟩ : ∃ link, log.trail.links[index]? = some link :=
        ⟨_, Array.getElem?_eq_getElem inside⟩
      have made := (sound.linked ⟨parent, segment, index⟩).mpr linked
      rw [spot_link log.trail sound.grounded index parent segment linked]
      cases parent with
      | none => exact .link none segment index [] made .top
      | some parent =>
          have earlier := sound.grounded index parent segment linked
          exact .link (some parent) segment index _ made (ih parent earlier (Nat.lt_trans earlier inside))

-- The links of a trail are pushes in the order of their indices, and a parent that stands before its entry has been
-- returned by then.
theorem links_log (links : List (Option Nat × Segment)) (grounded : (⟨links.toArray⟩ : Trail).Grounded) :
    ∃ log, empty.Grows log ∧ log.trail = ⟨links.toArray⟩ := by
  induction links using List.reverseRecOn with
  | nil => exact ⟨empty, .same, rfl⟩
  | append_singleton links link ih =>
      obtain ⟨parent, segment⟩ := link
      have pushed : (⟨(links ++ [(parent, segment)]).toArray⟩ : Trail) =
          ((⟨links.toArray⟩ : Trail).push parent segment).1 := by simp [Trail.push]
      have earlier : (⟨links.toArray⟩ : Trail).Grounded := by
        intro place above step linked
        refine grounded place above step ?_
        rw [pushed, push_older _ _ _ _ (Array.getElem?_eq_some_iff.mp linked).1]
        exact linked
      obtain ⟨log, grown, same⟩ := ih earlier
      have sound := (grows_sound empty log empty_sound grown).1
      have held : log.trail.Holds parent := by
        intro place isPlace
        rw [same]
        refine grounded _ place segment ?_
        rw [pushed, ← isPlace]
        exact push_newest _ parent segment
      refine ⟨log.push parent segment, .push log parent segment grown ((log.knows_iff sound parent).mpr held), ?_⟩
      rw [pushed, ← same]
      rfl

theorem leads_back (log : Log) (grown : empty.Grows log) (call : Call) (made : call ∈ log.calls) : ∃ chain,
    (∀ path, log.Chain (some call.index) path ↔ path = chain) ∧
    ∀ later, log.Grows later →
      (∀ moves, call.index < moves → later.trail.climb moves (some call.index) [] = some chain) ∧
      ∀ base, later.trail.path base call.index = base ++ chain := by
  have sound := (grows_sound empty log empty_sound grown).1
  have inside : call.index < log.trail.links.size := (Array.getElem?_eq_some_iff.mp ((sound.linked call).mp made)).1
  have held := (holds_place log.trail call.index).mpr inside
  refine ⟨log.trail.spot (some call.index), fun path => ⟨log.chain_spot sound _ path, fun same => ?_⟩,
    fun later after => ?_⟩
  · rw [same]
    exact log.spot_chain sound call.index inside
  · obtain ⟨laterSound, extended⟩ := grows_sound log later sound after
    have laterInside := (holds_place later.trail call.index).mp (extended.holds _ held)
    rw [← extended.same _ held]
    exact ⟨fun moves enough => climb_spot later.trail laterSound.grounded call.index moves enough laterInside,
      fun base => path_base later.trail base call.index⟩

end Log

def Made (trail : Trail) (starts : List (Option Nat)) : Prop :=
  ∃ log, Log.empty.Grows log ∧ log.trail = trail ∧ ∀ start ∈ starts, log.Knows start

theorem made_held (trail : Trail) (starts : List (Option Nat)) (grounded : trail.Grounded)
    (held : ∀ start ∈ starts, trail.Holds start) : trail.Made starts := by
  obtain ⟨log, grown, same⟩ : ∃ log, Log.empty.Grows log ∧ log.trail = trail := Log.links_log trail.links.toList grounded
  have sound := (Log.grows_sound .empty log Log.empty_sound grown).1
  refine ⟨log, grown, same, fun start inside => (log.knows_iff sound start).mpr ?_⟩
  rw [same]
  exact held start inside

end Trail

namespace Visit

def walk (trail : Trail) (pending : List Visit) : List (Trail × Visit) :=
  match pending with
  | [] => []
  | visit :: rest => (trail, visit) :: walk (visit.enter trail).1 ((visit.enter trail).2.2 ++ rest)
termination_by weights pending
decreasing_by
  have := enter_weights visit trail
  rw [weights_append]
  simp only [weights, List.map_cons, Node.weights] at this ⊢
  omega

-- What a walk reports of a node, at the index that the push for the node has returned.
def placed? (base : Path) (trail : Trail) (visit : Visit) : Option PlacedLeaf :=
  match visit.node with
  | .leaf found => some ⟨(visit.enter trail).1.path base (visit.enter trail).2.1, found⟩
  | _ => none

theorem place_leaves_walk (base : Path) (trail : Trail) (pending : List Visit) :
    Node.placeLeaves base trail pending = (walk trail pending).filterMap fun step => step.2.placed? base step.1 := by
  fun_induction walk trail pending with
  | case1 trail => rw [Node.placeLeaves, List.filterMap_nil]
  | case2 trail visit rest ih =>
      rw [Node.placeLeaves]
      split
      · rename_i found isLeaf
        have here : visit.placed? base trail =
            some ⟨(visit.enter trail).1.path base (visit.enter trail).2.1, found⟩ := by rw [placed?, isLeaf]
        have childless : (visit.enter trail).2.2 = [] := by rw [enter, isLeaf]
        rw [childless, List.nil_append] at ih
        simp only [List.filterMap_cons, here, childless, List.nil_append, ih]
      · rename_i inner
        have here : visit.placed? base trail = none := by
          rw [placed?]
          split
          · rename_i found isLeaf
            exact absurd isLeaf (inner found)
          · rfl
        simp only [List.filterMap_cons, here, ← ih]

theorem enter_holds (visit : Visit) (trail : Trail) : (visit.enter trail).1.Holds (some (visit.enter trail).2.1) := by
  obtain ⟨node, segment, parent⟩ := visit
  cases node with
  | leaf | and | or => exact Trail.push_holds trail parent segment
  | not a b =>
      simp only [enter, Trail.holds_place, Trail.push, Array.size_push]
      omega

theorem walk_made (trail : Trail) (pending : List Visit) (grounded : trail.Grounded)
    (held : ∀ visit ∈ pending, trail.Holds visit.parent) :
    ∀ step ∈ walk trail pending, step.1.Made [step.2.parent] ∧
      (step.2.enter step.1).1.Made (some (step.2.enter step.1).2.1 :: (step.2.enter step.1).2.2.map Visit.parent) := by
  fun_induction walk trail pending with
  | case1 => simp
  | case2 trail visit rest ih =>
      have known := visit.enter_entered trail grounded (held visit List.mem_cons_self)
      have here : (visit.enter trail).1.Made
          (some (visit.enter trail).2.1 :: (visit.enter trail).2.2.map Visit.parent) := by
        refine Trail.made_held _ _ known.extends_trail.grounded (List.forall_mem_cons.mpr ⟨visit.enter_holds trail, ?_⟩)
        simpa using known.held
      have later := visit.waiting_held trail known rest fun other waiting => held other (List.mem_cons_of_mem visit waiting)
      refine List.forall_mem_cons.mpr ⟨⟨?_, here⟩, ih known.extends_trail.grounded later⟩
      exact Trail.made_held trail _ grounded (List.forall_mem_singleton.mpr (held visit List.mem_cons_self))

end Visit

def Node.walk (node : Node) : List (Trail × Visit) := Visit.walk .empty [⟨node, .first node.kind, none⟩]

namespace ResultTree

def walk (trail : Trail) (pending : List (Option Nat × ResultTree)) : List (Trail × Option Nat × ResultTree) :=
  match pending with
  | [] => []
  | (place, .rows found) :: rest => (trail, place, .rows found) :: walk trail rest
  | (place, .branch children) :: rest =>
      (trail, place, .branch children) :: walk (children.enter place trail).1 ((children.enter place trail).2 ++ rest)
termination_by weights pending
decreasing_by
  · simp only [weights, weight]
    omega
  · have := enter_weights place trail children
    simp only [weights, weights_append, weight]
    omega

def listed? (trail : Trail) (place : Option Nat) : ResultTree → Option (Path × IdentitySet)
  | .rows found => some (trail.spot place, found)
  | .branch _ => none

theorem list_walk (trail : Trail) (pending : List (Option Nat × ResultTree)) :
    list trail pending = (walk trail pending).filterMap fun step => step.2.2.listed? step.1 step.2.1 := by
  fun_induction walk trail pending with
  | case1 trail => rw [list, List.filterMap_nil]
  | case2 trail place found rest ih => rw [list, ih]; rfl
  | case3 trail place children rest ih => rw [list, ih]; rfl

theorem walk_made (trail : Trail) (pending : List (Option Nat × ResultTree)) (grounded : trail.Grounded)
    (held : ∀ waiting ∈ pending, trail.Holds waiting.1) : ∀ step ∈ walk trail pending, step.1.Made [step.2.1] := by
  fun_induction walk trail pending with
  | case1 => simp
  | case2 trail place found rest ih =>
      obtain ⟨here, later⟩ := List.forall_mem_cons.mp held
      exact List.forall_mem_cons.mpr
        ⟨Trail.made_held trail _ grounded (List.forall_mem_singleton.mpr here), ih grounded later⟩
  | case3 trail place children rest ih =>
      obtain ⟨here, waiting⟩ := List.forall_mem_cons.mp held
      have known := enter_entered place trail children grounded here
      have later := waiting_held place trail children known rest waiting
      exact List.forall_mem_cons.mpr
        ⟨Trail.made_held trail _ grounded (List.forall_mem_singleton.mpr here), ih known.extends_trail.grounded later⟩

end ResultTree

def Store.walk (store : Store) : List (Trail × Option Nat × ResultTree) := ResultTree.walk .empty [(none, store.root)]

namespace Merge

def Task.starts : Task → List (Option Nat)
  | .tree _ parent | .entry _ _ parent => [parent]
  | .operand _ _ place => [some place]
  | .fold _ _ => []

theorem starts_held (trail : Trail) (task : Task) (held : task.Held trail) : ∀ start ∈ task.starts, trail.Holds start := by
  cases task with
  | tree | entry | operand => exact List.forall_mem_singleton.mpr held
  | fold => simp [Task.starts]

namespace Machine

theorem reaches_ready (policy : MissingOperandPolicy) (machine final : Machine) (reached : Reaches policy machine final)
    (ready : machine.Ready) : final.Ready :=
  reaches_keeps policy Ready (fun trail values task rest next ready done =>
    (step_follows policy trail values task rest next ready done).ready) machine final reached ready

theorem ready_made (machine : Machine) (ready : machine.Ready) :
    machine.trail.Made (machine.tasks.flatMap Task.starts) := by
  refine Trail.made_held _ _ ready.grounded fun start inside => ?_
  obtain ⟨task, waiting, known⟩ := List.mem_flatMap.mp inside
  exact starts_held _ task (ready.held task waiting) start known

end Machine

end Merge

namespace Trail

-- Every push below the top or a returned index leads back to the top, and the walks push nowhere else: the collection of
-- the leaves, the check of the filters, the listing of a store and its merge.
theorem links_lead_back :
    (∀ log, Log.empty.Grows log → ∀ call ∈ log.calls, ∃ chain,
      (∀ path, log.Chain (some call.index) path ↔ path = chain) ∧
      ∀ later, log.Grows later →
        (∀ moves, call.index < moves → later.trail.climb moves (some call.index) [] = some chain) ∧
        ∀ base, later.trail.path base call.index = base ++ chain) ∧
    (∀ node : Node,
      (∀ step ∈ node.walk, step.1.Made [step.2.parent] ∧ (step.2.enter step.1).1.Made
        (some (step.2.enter step.1).2.1 :: (step.2.enter step.1).2.2.map Visit.parent)) ∧
      (∀ base, node.placedLeaves base = node.walk.filterMap fun step => step.2.placed? base step.1) ∧
      ∀ (plan : Plan) (known : String → Bool), plan.root = some node → plan.checkFilters known =
        match (node.walk.filterMap fun step => step.2.placed? [] step.1).find? fun placed =>
          !known placed.leaf.filter with
        | none => .ok ()
        | some unknown => .error (.unknownFilter unknown.leaf.filter unknown.path)) ∧
    (∀ store : Store,
      (∀ step ∈ store.walk, step.1.Made [step.2.1]) ∧
      (store.entries = store.walk.filterMap fun step => step.2.2.listed? step.1 step.2.1) ∧
      ∀ policy machine, Merge.Machine.Reaches policy (.start store) machine →
        machine.trail.Made (machine.tasks.flatMap Merge.Task.starts)) := by
  refine ⟨Log.leads_back, fun node => ⟨?_, fun base => ?_, fun plan known planned => ?_⟩, fun store => ⟨?_, ?_, ?_⟩⟩
  · exact Visit.walk_made .empty _ empty_grounded (List.forall_mem_singleton.mpr (holds_top _))
  · exact Visit.place_leaves_walk base .empty _
  · rw [plan.check_filters_find node planned, Node.placedLeaves, Visit.place_leaves_walk]
    rfl
  · exact ResultTree.walk_made .empty _ empty_grounded (List.forall_mem_singleton.mpr (holds_top _))
  · exact ResultTree.list_walk .empty _
  · intro policy machine reached
    exact machine.ready_made (Merge.Machine.reaches_ready policy _ machine reached (Merge.Machine.start_ready store))

def operandLog : Log :=
  ((((Log.empty.push none ⟨.op .or, 0⟩).push (some 0) ⟨.op .not, 0⟩).push (some 1) ⟨.operand .a, 0⟩).push (some 1)
    ⟨.operand .b, 0⟩).push (some 3) ⟨.filter "package", 0⟩

def operandNode : Node := .not (.leaf ⟨"id", "?"⟩) (.leaf ⟨"package", "?"⟩)

def bareStore : Store := ⟨.branch (.cons ⟨.op .not, 0⟩ (.branch .nil) .nil), 0⟩

theorem links_lead_back_operand :
    (Log.empty.Grows operandLog ∧ ⟨some 3, ⟨.filter "package", 0⟩, 4⟩ ∈ operandLog.calls ∧
      operandLog.Grows (operandLog.push (some 2) ⟨.filter "package", 0⟩) ∧
      (operandLog.push (some 2) ⟨.filter "package", 0⟩).trail.path [⟨.op .and, 0⟩] 4 =
        [⟨.op .and, 0⟩, ⟨.op .or, 0⟩, ⟨.op .not, 0⟩, ⟨.operand .b, 0⟩, ⟨.filter "package", 0⟩]) ∧
    ((.empty, ⟨operandNode, ⟨.op .not, 0⟩, none⟩) ∈ operandNode.walk ∧
      (Visit.enter ⟨operandNode, ⟨.op .not, 0⟩, none⟩ .empty).1.Made [some 0, some 2, some 1] ∧
      (Plan.ofNode operandNode).root = some operandNode ∧
      (Plan.ofNode operandNode).checkFilters (fun name => name = "id") =
        .error (.unknownFilter "package" [⟨.op .not, 0⟩, ⟨.operand .b, 0⟩, ⟨.filter "package", 0⟩])) ∧
    (.empty, none, bareStore.root) ∈ bareStore.walk ∧ Trail.empty.Made [none] ∧
    ∃ machine, Merge.Machine.Reaches .reject (.start bareStore) machine ∧ machine.trail.Made [some 0, some 0] := by
  obtain ⟨leads, nodes, stores⟩ := links_lead_back
  have known (log : Log) (call : Call) (made : call ∈ log.calls) : log.Knows (some call.index) := by
    rintro index ⟨⟩
    exact ⟨call, made, rfl⟩
  have top (log : Log) : log.Knows none := by
    intro index absent
    cases absent
  have union := Log.Grows.push .empty none ⟨.op .or, 0⟩ .same (top _)
  have difference := union.push _ (some 0) ⟨.op .not, 0⟩ (known _ ⟨none, ⟨.op .or, 0⟩, 0⟩ (by decide))
  have sideA := difference.push _ (some 1) ⟨.operand .a, 0⟩ (known _ ⟨some 0, ⟨.op .not, 0⟩, 1⟩ (by decide))
  have sideB := sideA.push _ (some 1) ⟨.operand .b, 0⟩ (known _ ⟨some 0, ⟨.op .not, 0⟩, 1⟩ (by decide))
  have grown : Log.empty.Grows operandLog :=
    sideB.push _ (some 3) ⟨.filter "package", 0⟩ (known _ ⟨some 1, ⟨.operand .b, 0⟩, 3⟩ (by decide))
  have made : ⟨some 3, ⟨.filter "package", 0⟩, 4⟩ ∈ operandLog.calls := by decide
  have after : operandLog.Grows (operandLog.push (some 2) ⟨.filter "package", 0⟩) :=
    .push _ _ _ .same (known _ ⟨some 1, ⟨.operand .a, 0⟩, 2⟩ (by decide))
  obtain ⟨chain, only, kept⟩ := leads operandLog grown _ made
  have isChain : [⟨.op .or, 0⟩, ⟨.op .not, 0⟩, ⟨.operand .b, 0⟩, ⟨.filter "package", 0⟩] = chain :=
    (only _).mp (.link _ _ 4 [⟨.op .or, 0⟩, ⟨.op .not, 0⟩, ⟨.operand .b, 0⟩] made
      (.link _ _ 3 [⟨.op .or, 0⟩, ⟨.op .not, 0⟩] (by decide) (.link _ _ 1 [⟨.op .or, 0⟩] (by decide)
        (.link none _ 0 [] (by decide) .top))))
  obtain ⟨visits, placed, checks⟩ := nodes operandNode
  have first : (.empty, ⟨operandNode, ⟨.op .not, 0⟩, none⟩) ∈ operandNode.walk := by
    rw [Node.walk, Visit.walk]
    exact List.mem_cons_self
  have check := checks (.ofNode operandNode) (fun name => name = "id") rfl
  rw [← placed [], Node.placed_leaves_positions] at check
  obtain ⟨takes, _, merges⟩ := stores bareStore
  have root : (.empty, none, bareStore.root) ∈ bareStore.walk := by
    rw [Store.walk, bareStore, ResultTree.walk]
    exact List.mem_cons_self
  have reached : Merge.Machine.Reaches .reject (.start bareStore) ⟨(Trail.empty.push none ⟨.op .not, 0⟩).1, [],
      [.operand .nil .a 0, .operand .nil .b 0, .fold .not 2]⟩ :=
    .step _ _ _ _ _ _ rfl (.step _ _ _ _ _ _ rfl (.here _))
  refine ⟨⟨grown, made, after, ?_⟩, ⟨first, (visits _ first).2, rfl, check⟩, root, takes _ root,
    _, reached, merges .reject _ reached⟩
  rw [(kept _ after).2 [⟨.op .and, 0⟩], ← isChain]
  rfl

end Trail

end FilterPlan
