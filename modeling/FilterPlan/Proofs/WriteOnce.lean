import FilterPlan.Proofs.Lookup
import FilterPlan.Proofs.Steady

set_option autoImplicit false

namespace FilterPlan

theorem Store.insert_refused (store : Store) (path : Path) (rows : IdentitySet)
    (refused : (store.insert path rows).2 = false) : (store.insert path rows).1 = store := by
  rw [insert] at refused ⊢
  rcases inserted : store.root.insert rows path with ⟨root, flag⟩
  rw [inserted] at refused
  cases flag with
  | true => simp at refused
  | false =>
      have kept := tree_insert_refused rows store.root path (by rw [inserted])
      rw [inserted] at kept
      simp only at kept
      rw [kept]

structure Ledger where
  store : Store
  accepted : List Stored

namespace Ledger

def start : Ledger := ⟨.empty, []⟩

def write (ledger : Ledger) (entry : Stored) : Ledger :=
  match ledger.store.insert entry.1 entry.2 with
  | (store, true) => ⟨store, ledger.accepted ++ [entry]⟩
  | (store, false) => ⟨store, ledger.accepted⟩

def after (writes : List Stored) : Ledger := writes.foldl write start

theorem write_accepted (ledger : Ledger) (entry : Stored) (written : (ledger.store.insert entry.1 entry.2).2 = true) :
    ledger.write entry = ⟨(ledger.store.insert entry.1 entry.2).1, ledger.accepted ++ [entry]⟩ := by
  rw [write]
  rcases inserted : ledger.store.insert entry.1 entry.2 with ⟨store, flag⟩
  rw [inserted] at written
  simp only at written
  rw [written]

theorem write_refused (ledger : Ledger) (entry : Stored) (refused : (ledger.store.insert entry.1 entry.2).2 = false) :
    ledger.write entry = ledger := by
  have kept := ledger.store.insert_refused entry.1 entry.2 refused
  rw [write]
  rcases inserted : ledger.store.insert entry.1 entry.2 with ⟨store, flag⟩
  rw [inserted] at refused kept
  simp only at refused kept
  rw [refused, kept]

-- The store holds exactly the accepted writes, and these lie apart.
structure Kept (ledger : Ledger) : Prop where
  recorded : ledger.store.Records ledger.accepted
  deep : ∀ entry ∈ ledger.accepted, entry.1 ≠ []
  apart : ledger.accepted.Pairwise fun p q => Apart p.1 q.1

theorem start_kept : start.Kept :=
  ⟨⟨Store.empty_sound, by rw [start, Store.empty_entries]⟩, by simp [start], by simp [start]⟩

theorem write_iff (ledger : Ledger) (kept : ledger.Kept) (path : Path) (rows : IdentitySet) :
    (ledger.store.insert path rows).2 = true ↔ path ≠ [] ∧ ∀ entry ∈ ledger.accepted, Apart entry.1 path := by
  rw [ledger.store.insert_written kept.recorded.sound path rows]
  refine and_congr_right fun _ => forall_congr' fun entry => ?_
  rw [kept.recorded.listed.mem_iff]

theorem write_kept (ledger : Ledger) (kept : ledger.Kept) (entry : Stored) : (ledger.write entry).Kept := by
  cases flag : (ledger.store.insert entry.1 entry.2).2 with
  | false =>
      rw [write_refused ledger entry flag]
      exact kept
  | true =>
      obtain ⟨deep, apart⟩ := (ledger.write_iff kept entry.1 entry.2).mp flag
      have sound := ledger.store.insert_sound kept.recorded.sound entry.1 entry.2 flag
      have inserted := ledger.store.insert_entries entry.1 entry.2 flag
      rw [write_accepted ledger entry flag]
      constructor
      · refine ⟨sound, inserted.trans ?_⟩
        exact (kept.recorded.listed.cons entry).trans (List.perm_append_singleton entry _).symm
      · simp only [List.forall_mem_append, List.forall_mem_singleton]
        exact ⟨kept.deep, deep⟩
      · rw [List.pairwise_append]
        refine ⟨kept.apart, by simp, fun p inside q single => ?_⟩
        rw [List.mem_singleton.mp single]
        exact apart p inside

theorem after_kept (writes : List Stored) : (after writes).Kept := by
  have folded (ledger : Ledger) (kept : ledger.Kept) : (writes.foldl write ledger).Kept := by
    induction writes generalizing ledger with
    | nil => exact kept
    | cons entry rest ih => exact ih _ (ledger.write_kept kept entry)
  exact folded start start_kept

-- The result store is a write-once map of positions none of which lies above another. A refused write leaves it as it
-- was, and what it holds does not depend on the order of the accepted writes.
theorem write_once (writes : List Stored) :
    (∀ path rows, ((after writes).store.insert path rows).2 = true ↔
      path ≠ [] ∧ ∀ entry ∈ (after writes).accepted, entry.1 ≠ path ∧ ¬ entry.1 <+: path ∧ ¬ path <+: entry.1) ∧
    (∀ path rows, ((after writes).store.insert path rows).2 = false →
      ((after writes).store.insert path rows).1 = (after writes).store ∧
        Evaluation.fill [(path, rows)] (after writes).store = .error (.pathCollision path)) ∧
    (∀ path rows, (after writes).store.rowsAt? path = some rows ↔ (path, rows) ∈ (after writes).accepted) ∧
    (∀ path, (∃ children, (after writes).store.get? path = some (.branch children)) ↔
      path = [] ∨ ∃ entry ∈ (after writes).accepted, path <+: entry.1 ∧ path ≠ entry.1) ∧
    (after writes).store.entries.Perm (after writes).accepted ∧
    ((after writes).store.entries.Pairwise fun p q => compare p.1 q.1 = .lt) ∧
    (after writes).store.size = (after writes).accepted.length ∧
    ∀ other, other.Perm (after writes).accepted → Evaluation.fill other .empty = .ok (after writes).store := by
  have kept := after_kept writes
  have sound := kept.recorded.sound
  refine ⟨fun path rows => ?_, fun path rows refused => ⟨?_, ?_⟩, fun path rows => ?_, fun path => ?_,
    kept.recorded.listed, Store.entries_ascending _ sound, ?_, fun other same => ?_⟩
  · rw [write_iff _ kept]
    refine and_congr_right fun _ => forall₂_congr fun entry _ => ?_
    exact ⟨fun apart => ⟨apart_ne _ _ apart, apart⟩, fun apart => apart.2⟩
  · exact Store.insert_refused _ path rows refused
  · rw [Evaluation.fill]
    rcases inserted : (after writes).store.insert path rows with ⟨store, flag⟩
    rw [inserted] at refused
    simp only at refused
    rw [refused]
  · rw [Store.rows_at_iff _ sound, kept.recorded.listed.mem_iff]
  · rw [Store.get_branch_iff _ sound]
    simp only [kept.recorded.listed.mem_iff]
  · rw [sound.counted, kept.recorded.listed.length_eq]
  · have apart : other.Pairwise fun p q => Apart p.1 q.1 :=
      kept.apart.perm same.symm fun {p q} => apart_symm p.1 q.1
    obtain ⟨store, filled, otherSound, listed⟩ := Evaluation.fill_apart other .empty Store.empty_sound
      (fun entry inside => kept.deep entry (same.mem_iff.mp inside)) (by rwa [Store.empty_entries])
    rw [Store.empty_entries, List.nil_append] at listed
    rw [filled, Store.records_unique store _ _ ⟨otherSound, listed.trans same⟩ kept.recorded]

def crossingWrites : List Stored :=
  [([⟨.op .or, 0⟩, ⟨.filter "f", 0⟩], named "x"),
    ([⟨.op .or, 0⟩], named "above"),
    ([], named "root"),
    ([⟨.op .or, 0⟩, ⟨.filter "f", 0⟩], named "again"),
    ([⟨.op .or, 0⟩, ⟨.filter "f", 0⟩, ⟨.operand .a, 0⟩], named "below"),
    ([⟨.op .or, 0⟩, ⟨.filter "f", 1⟩], named "y"),
    ([⟨.op .and, 0⟩], named "z")]

theorem write_once_crossing :
    let x : Stored := ([⟨.op .or, 0⟩, ⟨.filter "f", 0⟩], named "x")
    let y : Stored := ([⟨.op .or, 0⟩, ⟨.filter "f", 1⟩], named "y")
    let z : Stored := ([⟨.op .and, 0⟩], named "z")
    (after crossingWrites).accepted = [x, y, z] ∧
      ((after crossingWrites).store.insert [⟨.op .or, 0⟩] (named "above")).2 = false ∧
      Evaluation.fill [([⟨.op .or, 0⟩], named "above")] (after crossingWrites).store =
        .error (.pathCollision [⟨.op .or, 0⟩]) ∧
      [z, y, x].Perm (after crossingWrites).accepted ∧
      Evaluation.fill [z, y, x] .empty = .ok (after crossingWrites).store := by
  intro x y z
  obtain ⟨_, refuses, _, _, _, _, _, reorders⟩ := write_once crossingWrites
  have accepted : (after crossingWrites).accepted = [x, y, z] := rfl
  have refused : ((after crossingWrites).store.insert [⟨.op .or, 0⟩] (named "above")).2 = false := by decide
  have shuffled : [z, y, x].Perm (after crossingWrites).accepted := accepted ▸ List.reverse_perm [x, y, z]
  exact ⟨accepted, refused, (refuses _ _ refused).2, shuffled, reorders _ shuffled⟩

end Ledger

end FilterPlan
