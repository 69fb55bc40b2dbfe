import FilterPlan.Evaluation
import FilterPlan.Proofs.Action

set_option autoImplicit false

namespace FilterPlan

namespace Deadline

variable (deadline : Deadline)

def Expired (now : Nat) : Prop := ∃ limit, deadline.limitMs = some limit ∧ limit * nanosPerMs ≤ now - deadline.started

def Late (error : EvaluateError) : Prop := ∃ elapsed limit, deadline.limitMs = some limit ∧ error = .timeout elapsed limit

theorem expired_later (now later : Nat) (forward : now ≤ later) (expired : deadline.Expired now) :
    deadline.Expired later := by
  obtain ⟨limit, limited, passed⟩ := expired
  exact ⟨limit, limited, by omega⟩

theorem timeout_expired (now : Nat) (expired : deadline.Expired now) :
    ∃ late, deadline.timeout? now = some late ∧ deadline.Late late := by
  obtain ⟨limit, limited, passed⟩ := expired
  rw [timeout?, limited]
  dsimp only
  rw [if_pos passed]
  exact ⟨_, rfl, _, limit, limited, rfl⟩

theorem timeout_in_time (now : Nat) (inTime : ¬ deadline.Expired now) : deadline.timeout? now = none := by
  rw [timeout?]
  cases limited : deadline.limitMs with
  | none => rfl
  | some limit =>
      by_cases passed : limit * nanosPerMs ≤ now - deadline.started
      · exact absurd ⟨limit, limited, passed⟩ inTime
      · exact if_neg passed

/-- Another deadline that was set no sooner and with the same limit. -/
structure Covers (other : Deadline) : Prop where
  limit : other.limitMs = deadline.limitMs
  sooner : deadline.started ≤ other.started

theorem covers_refl : deadline.Covers deadline := ⟨rfl, Nat.le_refl _⟩

theorem covers_trans (middle inner : Deadline) (covers : deadline.Covers middle) (later : middle.Covers inner) :
    deadline.Covers inner :=
  ⟨later.limit.trans covers.limit, Nat.le_trans covers.sooner later.sooner⟩

theorem covers_expired (inner : Deadline) (covers : deadline.Covers inner) (now : Nat) (expired : inner.Expired now) :
    deadline.Expired now := by
  obtain ⟨limit, limited, passed⟩ := expired
  have sooner := covers.sooner
  exact ⟨limit, covers.limit ▸ limited, by omega⟩

theorem late_is_timeout (error : EvaluateError) (late : deadline.Late error) : error.isTimeout = true := by
  obtain ⟨elapsed, limit, _, rfl⟩ := late
  rfl

structure Decides {α : Type} (now : Nat) (result : Except EvaluateError α) : Prop where
  late : deadline.Expired now → ∃ error, result = .error error ∧ deadline.Late error
  inTime : ¬ deadline.Expired now → ∀ error, result = .error error → error.isTimeout = false

end Deadline

def Event.Resolves : Event → Prop
  | .resolverCalled _ _ _ _ | .counted (.leafResolved _) | .traced _ (.leafResolved _ _ _ _) => True
  | _ => False

/-- What is written under a deadline: nothing is done for a leaf when the time of its query is up, and no failure is
told to be for lack of time before. A query that is begun inside another one is covered by the deadline of that. -/
structure Deadline.Allows (deadline : Deadline) (entry : Entry) : Prop where
  covered : deadline.Covers entry.site.deadline
  resolves : entry.event.Resolves → ¬ entry.site.deadline.Expired entry.time
  late : entry.event = .counted .timeout → entry.site.deadline.Expired entry.time

theorem Deadline.allows_expired (deadline : Deadline) (entry : Entry) (allows : deadline.Allows entry)
    (lacks : entry.event = .counted .timeout) : deadline.Expired entry.time :=
  deadline.covers_expired _ allows.covered _ (allows.late lacks)

structure Journal.Timely (deadline : Deadline) (start stop : Nat) (journal : Journal) : Prop where
  forward : start ≤ stop
  within : ∀ entry ∈ journal, start ≤ entry.time ∧ entry.time ≤ stop
  ascending : journal.Pairwise fun entry later => entry.time ≤ later.time
  allowed : ∀ entry ∈ journal, deadline.Allows entry

namespace Journal

variable (deadline : Deadline)

theorem timely_nothing (start stop : Nat) (forward : start ≤ stop) : Timely deadline start stop [] :=
  ⟨forward, by simp, .nil, by simp⟩

theorem timely_entry (now : Nat) (entry : Entry) (isNow : entry.time = now) (allowed : deadline.Allows entry) :
    Timely deadline now now [entry] := by
  refine ⟨Nat.le_refl _, ?_, List.pairwise_singleton _ _, ?_⟩
  · simp [isNow]
  · simpa using allowed

theorem timely_covered (inner : Deadline) (covers : deadline.Covers inner) (start stop : Nat) (journal : Journal)
    (timely : Timely inner start stop journal) : Timely deadline start stop journal := by
  refine ⟨timely.forward, timely.within, timely.ascending, fun entry inside => ?_⟩
  obtain ⟨covered, resolves, late⟩ := timely.allowed entry inside
  exact ⟨deadline.covers_trans _ _ covers covered, resolves, late⟩

theorem timely_append (start middle stop : Nat) (before after : Journal)
    (timelyBefore : Timely deadline start middle before) (timelyAfter : Timely deadline middle stop after) :
    Timely deadline start stop (before ++ after) := by
  constructor
  case forward => exact Nat.le_trans timelyBefore.forward timelyAfter.forward
  case within =>
    intro entry inside
    rcases List.mem_append.mp inside with early | late
    · have known := timelyBefore.within entry early
      exact ⟨known.1, Nat.le_trans known.2 timelyAfter.forward⟩
    · have known := timelyAfter.within entry late
      exact ⟨Nat.le_trans timelyBefore.forward known.1, known.2⟩
  case ascending =>
    apply List.pairwise_append.mpr
    refine ⟨timelyBefore.ascending, timelyAfter.ascending, fun entry early later late => ?_⟩
    exact Nat.le_trans (timelyBefore.within entry early).2 (timelyAfter.within later late).1
  case allowed =>
    intro entry inside
    exact (List.mem_append.mp inside).elim (timelyBefore.allowed entry) (timelyAfter.allowed entry)

end Journal

namespace Action

variable {σ ε δ α β : Type} (deadline : Deadline)

def Heeds (action : Action σ ε α) (world : World σ) (post : Except ε α → World σ → Prop) : Prop :=
  deadline.started ≤ world.now → action.Does world fun result after journal =>
    Journal.Timely deadline world.now after.now journal ∧ post result after

theorem heeds_weaken {action : Action σ ε α} {world : World σ} {post other : Except ε α → World σ → Prop}
    (heeds : action.Heeds deadline world post) (weaker : ∀ result after, post result after → other result after) :
    action.Heeds deadline world other :=
  fun begun => ⟨(heeds begun).1, weaker _ _ (heeds begun).2⟩

theorem bind_heeds (first : Action σ ε α) (next : α → Action σ ε β) (world : World σ)
    (post : Except ε β → World σ → Prop)
    (heeds : first.Heeds deadline world fun result after =>
      match result with
      | .ok value => (next value).Heeds deadline after post
      | .error error => post (.error error) after) : (first >>= next).Heeds deadline world post := by
  intro begun
  rw [bind_does]
  apply does_weaken (heeds begun)
  rintro result after journal ⟨timely, known⟩
  cases result with
  | error error => exact ⟨timely, known⟩
  | ok value =>
      apply does_weaken (known (Nat.le_trans begun timely.forward))
      rintro later final rest ⟨timelyRest, posted⟩
      exact ⟨journal.timely_append deadline _ _ _ rest timely timelyRest, posted⟩

theorem still_heeds (action : Action σ ε α) (world : World σ) (post : Except ε α → World σ → Prop)
    (still : action.Does world fun result after journal => after.now = world.now ∧ journal = [] ∧ post result after) :
    action.Heeds deadline world post := by
  intro _
  apply does_weaken still
  rintro result after _ ⟨same, rfl, known⟩
  exact ⟨Journal.timely_nothing deadline _ _ (Nat.le_of_eq same.symm), known⟩

theorem pure_heeds (value : α) (world : World σ) (post : Except ε α → World σ → Prop) (known : post (.ok value) world) :
    (pure value : Action σ ε α).Heeds deadline world post :=
  still_heeds deadline _ _ _ ⟨rfl, rfl, known⟩

theorem done_heeds (value : α) (world : World σ) (post : Except ε α → World σ → Prop) (known : post (.ok value) world) :
    (done value : Action σ ε α).Heeds deadline world post :=
  still_heeds deadline _ _ _ ⟨rfl, rfl, known⟩

theorem fail_heeds (error : ε) (world : World σ) (post : Except ε α → World σ → Prop)
    (known : post (.error error) world) : (fail error : Action σ ε α).Heeds deadline world post :=
  still_heeds deadline _ _ _ ⟨rfl, rfl, known⟩

theorem of_except_heeds (result : Except ε α) (world : World σ) (post : Except ε α → World σ → Prop)
    (known : post result world) : (ofExcept result).Heeds deadline world post :=
  still_heeds deadline _ _ _ ⟨rfl, rfl, known⟩

theorem record_heeds (site : Site) (event : Event) (world : World σ) (post : Except ε Unit → World σ → Prop)
    (allowed : deadline.Allows ⟨site, world.now, event⟩) (known : post (.ok ()) world) :
    (record site event).Heeds deadline world post :=
  fun _ => ⟨Journal.timely_entry deadline world.now _ rfl allowed, known⟩

theorem consult_heeds (ask : σ → Reply σ α) (world : World σ) (post : Except ε α → World σ → Prop)
    (known : ∀ after, post (.ok (ask world.state).answer) after) : (consult ask).Heeds deadline world post :=
  fun _ => ⟨Journal.timely_nothing deadline _ _ (Nat.le_add_right _ _), known _⟩

theorem attempt_heeds (action : Action σ δ α) (world : World σ) (post : Except ε (Except δ α) → World σ → Prop)
    (heeds : action.Heeds deadline world fun result after => post (.ok result) after) :
    action.attempt.Heeds deadline world post := heeds

theorem map_error_heeds (change : δ → ε) (action : Action σ δ α) (world : World σ)
    (post : Except ε α → World σ → Prop)
    (heeds : action.Heeds deadline world fun result after => post (result.mapError change) after) :
    (action.mapError change).Heeds deadline world post := heeds

theorem on_failure_heeds (action : Action σ ε α) (respond : ε → Action σ ε Unit) (world : World σ)
    (post : Except ε α → World σ → Prop)
    (heeds : action.Heeds deadline world fun result after =>
      match result with
      | .ok value => post (.ok value) after
      | .error error => (respond error).Heeds deadline after fun response final =>
          response = .ok () ∧ post (.error error) final) :
    (action.onFailure respond).Heeds deadline world post := by
  change (action.attempt >>= _).Heeds deadline world post
  apply bind_heeds
  apply attempt_heeds
  apply heeds_weaken deadline heeds
  intro result after known
  cases result with
  | ok value => exact done_heeds deadline _ _ _ known
  | error error =>
      change (respond error >>= _).Heeds deadline after _
      apply bind_heeds
      apply heeds_weaken deadline known
      rintro response final ⟨rfl, posted⟩
      exact fail_heeds deadline _ _ _ posted

end Action

end FilterPlan
