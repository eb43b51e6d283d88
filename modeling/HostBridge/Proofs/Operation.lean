import HostBridge.World

/-!
# Running operations

How an operation that changes a state and may fail runs, one equation for each
of the ways in which operations are put together.  The equations hold for any
state and any kind of failure; `Op` is the case of the world and its faults.
-/

namespace HostBridge.Operation

variable {ε σ α β : Type}

@[simp]
theorem run_pure (value : α) (state : σ) :
    (pure value : ExceptT ε (StateM σ) α).run state = (.ok value, state) := rfl

@[simp]
theorem run_throw (failure : ε) (state : σ) :
    (throw failure : ExceptT ε (StateM σ) α).run state = (.error failure, state) := rfl

@[simp]
theorem run_get (state : σ) :
    (get : ExceptT ε (StateM σ) σ).run state = (.ok state, state) := rfl

@[simp]
theorem run_modify (step : σ → σ) (state : σ) :
    (modify step : ExceptT ε (StateM σ) Unit).run state = (.ok (), step state) := rfl

@[simp]
theorem run_modifyGet (step : σ → α × σ) (state : σ) :
    (modifyGet step : ExceptT ε (StateM σ) α).run state =
      (.ok (step state).1, (step state).2) := rfl

@[simp]
theorem run_mk (step : σ → Except ε α × σ) (state : σ) :
    (ExceptT.mk step : ExceptT ε (StateM σ) α).run state = step state := rfl

/-- The second of two operations runs where the first has ended, unless that failed. -/
theorem run_bind (first : ExceptT ε (StateM σ) α) (next : α → ExceptT ε (StateM σ) β)
    (state : σ) :
    (first >>= next).run state =
      match first.run state with
      | (.ok value, state) => (next value).run state
      | (.error failure, state) => (.error failure, state) := by
  show (ExceptT.bind first next) state = _
  simp only [ExceptT.bind, ExceptT.mk, ExceptT.run]
  show (StateT.bind _ _) state = _
  simp only [StateT.bind]
  show (match first state with | (result, state) => _) = _
  rcases first state with ⟨result, after⟩
  cases result <;> rfl

theorem run_bind_of_ok {first : ExceptT ε (StateM σ) α} {state after : σ} {value : α}
    (succeeds : first.run state = (.ok value, after)) (next : α → ExceptT ε (StateM σ) β) :
    (first >>= next).run state = (next value).run after := by
  rw [run_bind, succeeds]

theorem run_bind_of_error {first : ExceptT ε (StateM σ) α} {state after : σ} {failure : ε}
    (fails : first.run state = (.error failure, after)) (next : α → ExceptT ε (StateM σ) β) :
    (first >>= next).run state = (.error failure, after) := by
  rw [run_bind, fails]

end HostBridge.Operation

namespace HostBridge.Op

/-! ## Operations on the world -/

variable {α : Type} (world : World)

@[simp]
theorem run_world : (Op.world).run world = (.ok world, world) := rfl

@[simp]
theorem run_heap : (Op.heap).run world = (.ok world.heap, world) := rfl

@[simp]
theorem run_change (step : World → World) : (Op.change step).run world = (.ok (), step world) :=
  rfl

@[simp]
theorem run_step (action : World → α × World) :
    (Op.step action).run world = (.ok (action world).1, (action world).2) := rfl

@[simp]
theorem run_raise (exception : Exception) :
    (Op.raise exception : Op α).run world = (.error (.raised exception), world) := rfl

@[simp]
theorem run_panic (misuse : Misuse) :
    (Op.panic misuse : Op α).run world = (.error (.panicked misuse), world) := rfl

@[simp]
theorem run_ofExcept (result : Except Fault α) :
    (Op.ofExcept result).run world = (result, world) := by
  cases result <;> rfl

@[simp]
theorem run_ofFunction (step : World → Except Fault α × World) :
    (Op.ofFunction step).run world = step world := rfl

@[simp]
theorem run_always (action : Op α) (step : World → World) :
    (action.always step).run world = ((action.run world).1, step (action.run world).2) := rfl

@[simp]
theorem run_note (level : Level) (text : String) :
    (Op.note level text).run world = (.ok (), world.note level text) := rfl

@[simp]
theorem run_retain (ref : Ref) : (Op.retain ref).run world = (.ok ref, world.retain ref) := rfl

@[simp]
theorem run_release (ref : Ref) : (Op.release ref).run world = (.ok (), world.release ref) := rfl

@[simp]
theorem run_releaseAll (refs : List Ref) :
    (Op.releaseAll refs).run world = (.ok (), world.releaseAll refs) := rfl

@[simp]
theorem run_create (body : Body) :
    (Op.create body).run world = (.ok (world.create body).1, (world.create body).2) := rfl

@[simp]
theorem run_place (body : Body) :
    (Op.place body).run world = (.ok (world.place body).1, (world.place body).2) := rfl

end HostBridge.Op

namespace HostBridge.Op

/-! ## Operations that change nothing -/

variable {α β : Type}

/-- An operation that changes nothing, whether it fails or not. -/
def Looks (action : Op α) : Prop := ∀ world, (action.run world).2 = world

/-- An operation that changes nothing if it fails. -/
def AllOrNothing (action : Op α) : Prop :=
  ∀ world fault after, action.run world = (.error fault, after) → after = world

theorem Looks.allOrNothing {action : Op α} (looks : Looks action) : AllOrNothing action := by
  intro world fault after failed
  have same := looks world
  rw [failed] at same
  exact same

theorem looks_pure (value : α) : Looks (pure value) := fun _ => rfl

theorem looks_throw (fault : Fault) : Looks (throw fault : Op α) := fun _ => rfl

theorem looks_raise (exception : Exception) : Looks (raise exception : Op α) := fun _ => rfl

theorem looks_panic (misuse : Misuse) : Looks (panic misuse : Op α) := fun _ => rfl

theorem looks_world : Looks world := fun _ => rfl

theorem looks_heap : Looks heap := fun _ => rfl

theorem Looks.bind {first : Op α} {next : α → Op β} (looks : Looks first)
    (later : ∀ value, Looks (next value)) : Looks (first >>= next) := by
  intro world
  have same := looks world
  rcases running : first.run world with ⟨result, after⟩
  rw [running] at same
  change after = world at same
  subst same
  cases result with
  | ok value =>
    rw [Operation.run_bind_of_ok running]
    exact later value after
  | error fault => rw [Operation.run_bind_of_error running]

/-- What only looks may come before a step that is done as a whole. -/
theorem Looks.bind_allOrNothing {first : Op α} {next : α → Op β} (looks : Looks first)
    (later : ∀ value, AllOrNothing (next value)) : AllOrNothing (first >>= next) := by
  intro world fault after failed
  have same := looks world
  rcases running : first.run world with ⟨result, middle⟩
  rw [running] at same
  change middle = world at same
  subst same
  cases result with
  | ok value =>
    rw [Operation.run_bind_of_ok running] at failed
    exact later value middle fault after failed
  | error stop =>
    rw [Operation.run_bind_of_error running] at failed
    exact (Prod.mk.inj failed).2.symm

end HostBridge.Op
