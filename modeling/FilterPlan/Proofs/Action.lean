import FilterPlan.Action

set_option autoImplicit false

namespace FilterPlan

namespace Action

variable {σ ε δ α β : Type}

theorem bind_after {first : Action σ ε α} {next : α → Action σ ε β} {world after : World σ} {value : α}
    {journal : Journal} (done : first world = ⟨.ok value, after, journal⟩) :
    (first >>= next) world =
      ⟨(next value after).result, (next value after).world, journal ++ (next value after).journal⟩ := by
  have unfolded : (first >>= next) = first.bind next := rfl
  rw [unfolded, bind, done]

theorem bind_failed {first : Action σ ε α} {next : α → Action σ ε β} {world after : World σ} {error : ε}
    {journal : Journal} (failed : first world = ⟨.error error, after, journal⟩) :
    (first >>= next) world = ⟨.error error, after, journal⟩ := by
  have unfolded : (first >>= next) = first.bind next := rfl
  rw [unfolded, bind, failed]

theorem attempt_ended {action : Action σ δ α} {world after : World σ} {result : Except δ α} {journal : Journal}
    (ended : action world = ⟨result, after, journal⟩) :
    (action.attempt : Action σ ε (Except δ α)) world = ⟨.ok result, after, journal⟩ := by
  rw [attempt, ended]

theorem map_error_ended {action : Action σ δ α} {world after : World σ} {result : Except δ α} {journal : Journal}
    (change : δ → ε) (ended : action world = ⟨result, after, journal⟩) :
    action.mapError change world = ⟨result.mapError change, after, journal⟩ := by
  rw [mapError, ended]

theorem bind_pure_journal (action : Action σ ε α) (change : α → β) (world : World σ) :
    ((action >>= fun value => pure (change value)) world).journal = (action world).journal := by
  cases ended : action world with
  | mk result after journal =>
      cases result with
      | error error => rw [bind_failed ended]
      | ok value =>
          rw [bind_after ended]
          exact List.append_nil journal

def Ends (action : Action σ ε α) (world : World σ) (post : Except ε α → World σ → Prop) : Prop :=
  post (action world).result (action world).world

theorem ends_weaken {action : Action σ ε α} {world : World σ} {post other : Except ε α → World σ → Prop}
    (ends : action.Ends world post) (weaker : ∀ result after, post result after → other result after) :
    action.Ends world other :=
  weaker _ _ ends

theorem bind_ends (first : Action σ ε α) (next : α → Action σ ε β) (world : World σ)
    (post : Except ε β → World σ → Prop) :
    (first >>= next).Ends world post ↔ first.Ends world fun result after =>
      match result with
      | .ok value => (next value).Ends after post
      | .error error => post (.error error) after := by
  have unfolded : (first >>= next) = first.bind next := rfl
  rw [unfolded, Ends, Ends, bind]
  rcases first world with ⟨_ | value, after, journal⟩ <;> rfl

@[simp] theorem pure_ends (value : α) (world : World σ) (post : Except ε α → World σ → Prop) :
    (pure value : Action σ ε α).Ends world post ↔ post (.ok value) world := Iff.rfl

@[simp] theorem done_ends (value : α) (world : World σ) (post : Except ε α → World σ → Prop) :
    (done value : Action σ ε α).Ends world post ↔ post (.ok value) world := Iff.rfl

@[simp] theorem fail_ends (error : ε) (world : World σ) (post : Except ε α → World σ → Prop) :
    (fail error : Action σ ε α).Ends world post ↔ post (.error error) world := Iff.rfl

@[simp] theorem of_except_ends (result : Except ε α) (world : World σ) (post : Except ε α → World σ → Prop) :
    (ofExcept result).Ends world post ↔ post result world := Iff.rfl

@[simp] theorem record_ends (site : Site) (event : Event) (world : World σ)
    (post : Except ε Unit → World σ → Prop) : (record site event).Ends world post ↔ post (.ok ()) world := Iff.rfl

@[simp] theorem count_ends (site : Site) (metric : Metric) (world : World σ)
    (post : Except ε Unit → World σ → Prop) : (count site metric).Ends world post ↔ post (.ok ()) world := Iff.rfl

theorem attempt_ends (action : Action σ δ α) (world : World σ) (post : Except ε (Except δ α) → World σ → Prop) :
    action.attempt.Ends world post ↔ action.Ends world fun result after => post (.ok result) after := Iff.rfl

theorem map_error_ends (change : δ → ε) (action : Action σ δ α) (world : World σ)
    (post : Except ε α → World σ → Prop) :
    (action.mapError change).Ends world post ↔
      action.Ends world fun result after => post (result.mapError change) after := Iff.rfl

theorem on_failure_ends (action : Action σ ε α) (respond : ε → Action σ ε Unit) (world : World σ)
    (post : Except ε α → World σ → Prop)
    (quiet : ∀ error after, (respond error).Ends after fun result final => result = .ok () ∧ final = after)
    (ends : action.Ends world post) : (action.onFailure respond).Ends world post := by
  change (action.attempt >>= _).Ends world post
  rw [bind_ends, attempt_ends]
  refine ends_weaken ends fun result after known => ?_
  cases result with
  | ok value => exact known
  | error error =>
      change (respond error >>= _).Ends after post
      rw [bind_ends]
      refine ends_weaken (quiet error after) fun response final kept => ?_
      obtain ⟨rfl, rfl⟩ := kept
      exact known

-- What an action writes, in whatever world it is done: `post` holds of its result and of its journal.
def Writes (action : Action σ ε α) (post : Except ε α → Journal → Prop) : Prop :=
  ∀ world, post (action world).result (action world).journal

theorem writes_weaken {action : Action σ ε α} {post other : Except ε α → Journal → Prop} (written : action.Writes post)
    (weaker : ∀ result journal, post result journal → other result journal) : action.Writes other :=
  fun world => weaker _ _ (written world)

theorem bind_writes {first : Action σ ε α} {next : α → Action σ ε β} {post : Except ε β → Journal → Prop}
    (written : first.Writes fun result journal =>
      match result with
      | .ok value => (next value).Writes fun later rest => post later (journal ++ rest)
      | .error error => post (.error error) journal) :
    (first >>= next).Writes post := by
  intro world
  have known := written world
  have unfolded : (first >>= next) = first.bind next := rfl
  rw [unfolded, bind]
  revert known
  rcases first world with ⟨_ | value, after, journal⟩
  · exact id
  · exact fun known => known after

theorem pure_writes {value : α} {post : Except ε α → Journal → Prop} (known : post (.ok value) []) :
    (pure value : Action σ ε α).Writes post := fun _ => known

theorem done_writes {value : α} {post : Except ε α → Journal → Prop} (known : post (.ok value) []) :
    (done value : Action σ ε α).Writes post := fun _ => known

theorem fail_writes {error : ε} {post : Except ε α → Journal → Prop} (known : post (.error error) []) :
    (fail error : Action σ ε α).Writes post := fun _ => known

theorem of_except_writes {result : Except ε α} {post : Except ε α → Journal → Prop} (known : post result []) :
    (ofExcept result : Action σ ε α).Writes post := fun _ => known

theorem consult_writes {ask : σ → Reply σ α} {post : Except ε α → Journal → Prop}
    (known : ∀ value, post (.ok value) []) : (consult ask).Writes post := fun _ => known _

theorem record_then_writes {site : Site} {event : Event} {next : Unit → Action σ ε α}
    {post : Except ε α → Journal → Prop}
    (written : ∀ time, (next ()).Writes fun result journal => post result (⟨site, time, event⟩ :: journal)) :
    (record site event >>= next).Writes post :=
  bind_writes fun world => written world.now

theorem count_then_writes {site : Site} {metric : Metric} {next : Unit → Action σ ε α}
    {post : Except ε α → Journal → Prop}
    (written : ∀ time, (next ()).Writes fun result journal => post result (⟨site, time, .counted metric⟩ :: journal)) :
    (count site metric >>= next).Writes post :=
  record_then_writes written

theorem attempt_writes {action : Action σ δ α} {post : Except ε (Except δ α) → Journal → Prop}
    (written : action.Writes fun result journal => post (.ok result) journal) : action.attempt.Writes post := written

theorem map_error_writes {change : δ → ε} {action : Action σ δ α} {post : Except ε α → Journal → Prop}
    (written : action.Writes fun result journal => post (result.mapError change) journal) :
    (action.mapError change).Writes post := written

theorem on_failure_writes {action : Action σ ε α} {respond : ε → Action σ ε Unit} {post : Except ε α → Journal → Prop}
    (written : action.Writes fun result journal =>
      match result with
      | .ok value => post (.ok value) journal
      | .error error => (respond error).Writes fun response rest =>
          response = .ok () ∧ post (.error error) (journal ++ rest)) :
    (action.onFailure respond).Writes post := by
  change (action.attempt >>= _).Writes post
  refine bind_writes (attempt_writes (writes_weaken written fun result journal known => ?_))
  cases result with
  | ok value => exact done_writes (by simpa using known)
  | error error =>
      change (respond error >>= _).Writes _
      refine bind_writes (writes_weaken known fun response rest after => ?_)
      obtain ⟨rfl, posted⟩ := after
      exact fail_writes (by simpa using posted)

-- All that comes of an action in a world: its result, the world that it leaves and what it writes.
def Does (action : Action σ ε α) (world : World σ) (post : Except ε α → World σ → Journal → Prop) : Prop :=
  post (action world).result (action world).world (action world).journal

theorem does_weaken {action : Action σ ε α} {world : World σ} {post other : Except ε α → World σ → Journal → Prop}
    (does : action.Does world post)
    (weaker : ∀ result after journal, post result after journal → other result after journal) :
    action.Does world other :=
  weaker _ _ _ does

theorem writes_does {action : Action σ ε α} {post : Except ε α → Journal → Prop} (written : action.Writes post)
    (world : World σ) : action.Does world fun result _ journal => post result journal := written world

theorem bind_does (first : Action σ ε α) (next : α → Action σ ε β) (world : World σ)
    (post : Except ε β → World σ → Journal → Prop) :
    (first >>= next).Does world post ↔ first.Does world fun result after journal =>
      match result with
      | .ok value => (next value).Does after fun later final rest => post later final (journal ++ rest)
      | .error error => post (.error error) after journal := by
  have unfolded : (first >>= next) = first.bind next := rfl
  rw [unfolded, Does, Does, bind]
  rcases first world with ⟨_ | value, after, journal⟩ <;> rfl

@[simp] theorem pure_does (value : α) (world : World σ) (post : Except ε α → World σ → Journal → Prop) :
    (pure value : Action σ ε α).Does world post ↔ post (.ok value) world [] := Iff.rfl

@[simp] theorem done_does (value : α) (world : World σ) (post : Except ε α → World σ → Journal → Prop) :
    (done value : Action σ ε α).Does world post ↔ post (.ok value) world [] := Iff.rfl

@[simp] theorem fail_does (error : ε) (world : World σ) (post : Except ε α → World σ → Journal → Prop) :
    (fail error : Action σ ε α).Does world post ↔ post (.error error) world [] := Iff.rfl

@[simp] theorem of_except_does (result : Except ε α) (world : World σ)
    (post : Except ε α → World σ → Journal → Prop) : (ofExcept result).Does world post ↔ post result world [] := Iff.rfl

@[simp] theorem record_does (site : Site) (event : Event) (world : World σ)
    (post : Except ε Unit → World σ → Journal → Prop) :
    (record site event).Does world post ↔ post (.ok ()) world [⟨site, world.now, event⟩] := Iff.rfl

@[simp] theorem count_does (site : Site) (metric : Metric) (world : World σ)
    (post : Except ε Unit → World σ → Journal → Prop) :
    (count site metric).Does world post ↔ post (.ok ()) world [⟨site, world.now, .counted metric⟩] := Iff.rfl

theorem attempt_does (action : Action σ δ α) (world : World σ)
    (post : Except ε (Except δ α) → World σ → Journal → Prop) :
    action.attempt.Does world post ↔ action.Does world fun result => post (.ok result) := Iff.rfl

theorem map_error_does (change : δ → ε) (action : Action σ δ α) (world : World σ)
    (post : Except ε α → World σ → Journal → Prop) :
    (action.mapError change).Does world post ↔ action.Does world fun result => post (result.mapError change) := Iff.rfl

theorem on_failure_does (action : Action σ ε α) (respond : ε → Action σ ε Unit) (world : World σ)
    (post : Except ε α → World σ → Journal → Prop)
    (does : action.Does world fun result after journal =>
      match result with
      | .ok value => post (.ok value) after journal
      | .error error => (respond error).Does after fun response final rest =>
          response = .ok () ∧ post (.error error) final (journal ++ rest)) :
    (action.onFailure respond).Does world post := by
  change (action.attempt >>= _).Does world post
  rw [bind_does, attempt_does]
  refine does_weaken does fun result after journal known => ?_
  cases result with
  | ok value => simpa using known
  | error error =>
      change (respond error >>= _).Does after _
      rw [bind_does]
      refine does_weaken known fun response final rest answered => ?_
      obtain ⟨rfl, posted⟩ := answered
      simpa using posted

def Fails (action : Action σ ε α) (known : ε → Prop) : Prop :=
  action.Writes fun result _ => ∀ error, result = .error error → known error

theorem bind_fails {first : Action σ ε α} {next : α → Action σ ε β} {known : ε → Prop} (fails : first.Fails known)
    (later : ∀ value, (next value).Fails known) : (first >>= next).Fails known := by
  refine bind_writes (writes_weaken fails fun result journal failed => ?_)
  cases result with
  | ok value => exact later value
  | error error => exact fun other same => failed other (by rw [Except.error.inj same])

theorem pure_fails (value : α) (known : ε → Prop) : (pure value : Action σ ε α).Fails known :=
  fun _ error failed => by cases failed

theorem done_fails (value : α) (known : ε → Prop) : (done value : Action σ ε α).Fails known :=
  pure_fails value known

theorem fail_fails {error : ε} {known : ε → Prop} (isKnown : known error) :
    (fail error : Action σ ε α).Fails known :=
  fun _ _ failed => Except.error.inj failed ▸ isKnown

theorem record_fails (site : Site) (event : Event) (known : ε → Prop) :
    (record site event : Action σ ε Unit).Fails known :=
  fun _ error failed => by cases failed

theorem count_fails (site : Site) (metric : Metric) (known : ε → Prop) :
    (count site metric : Action σ ε Unit).Fails known :=
  record_fails site (.counted metric) known

theorem attempt_fails (action : Action σ δ α) (known : ε → Prop) :
    (action.attempt : Action σ ε (Except δ α)).Fails known :=
  fun _ error failed => by cases failed

theorem map_error_fails {change : δ → ε} {action : Action σ δ α} {known : ε → Prop}
    (fails : action.Fails fun error => known (change error)) : (action.mapError change).Fails known := by
  refine map_error_writes (writes_weaken fails fun result journal failed error same => ?_)
  cases result with
  | ok value => cases same
  | error inner => exact Except.error.inj same ▸ failed inner rfl

theorem on_failure_fails {action : Action σ ε α} {respond : ε → Action σ ε Unit} {known : ε → Prop}
    (fails : action.Fails known) (responds : ∀ error, (respond error).Fails known) :
    (action.onFailure respond).Fails known := by
  change (action.attempt >>= _).Fails known
  refine bind_writes (attempt_writes (writes_weaken fails fun result journal failed => ?_))
  cases result with
  | ok value => exact done_fails value known
  | error error => exact bind_fails (responds error) fun _ => fail_fails (failed error rfl)

end Action

end FilterPlan
