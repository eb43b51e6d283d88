import HostBridge.Proofs.Interpreter.Standing

/-!
# One live interpreter on a thread

Clients hold handles to interpreters, of their own or in bridges.  An interpreter occupies the
thread while a handle to it is held and it is not finalized.  It also does so when it was
finalized, but its queue could not be worked off, for then it has not been torn down: a batch of
half a word and more leaves no room for the queue.

Whatever is done with handles, one interpreter at most occupies the thread.  It is the one that is
found as the current one, and while it is there no other one is started.
-/

namespace HostBridge

open Op

variable {world before after : World} {handles : Multiset InterpreterId} {id : InterpreterId}

/-! ## Handles -/

/-- Worlds that clients come to by taking and giving up handles to interpreters, with the handles
that are held.  What else goes on leaves interpreters standing. -/
inductive Tenancy : World → Multiset InterpreterId → Prop
  | initial : Tenancy .initial 0
  | elapse {before after : World} {handles : Multiset InterpreterId}
      (front : Tenancy before handles) (stands : before.Stands after) : Tenancy after handles
  | start {before after : World} {handles : Multiset InterpreterId} {id : InterpreterId}
      (configuration : Configuration) (front : Tenancy before handles)
      (ran : (start configuration).run before = (.ok (.ok id), after)) :
    Tenancy after (handles + {id})
  | refused {before after : World} {handles : Multiset InterpreterId} {error : StartError}
      (configuration : Configuration) (front : Tenancy before handles)
      (ran : (start configuration).run before = (.ok (.error error), after)) :
    Tenancy after handles
  | retain {before after : World} {handles : Multiset InterpreterId} {id : InterpreterId}
      (front : Tenancy before handles) (held : id ∈ handles)
      (ran : (retainInterpreter id).run before = (.ok (), after)) :
    Tenancy after (handles + {id})
  | current {before after : World} {handles : Multiset InterpreterId} {id : InterpreterId}
      (front : Tenancy before handles) (found : current?.run before = (.ok (some id), before))
      (ran : (retainInterpreter id).run before = (.ok (), after)) :
    Tenancy after (handles + {id})
  | connect {before after : World} {handles : Multiset InterpreterId} {id : InterpreterId}
      {bridge : Bridge} (front : Tenancy before handles) (held : id ∈ handles)
      (ran : (Program.connect id).run before = (.ok bridge, after)) :
    Tenancy after (handles + {bridge.interpreter})
  | drop {before after : World} {handles : Multiset InterpreterId} {id : InterpreterId}
      {result : Except Fault Unit} (front : Tenancy before (handles + {id}))
      (ran : (dropInterpreter id).run before = (result, after)) : Tenancy after handles
  | disconnect {before after : World} {handles : Multiset InterpreterId} {bridge : Bridge}
      {result : Except Fault Unit} (front : Tenancy before (handles + {bridge.interpreter}))
      (ran : (Program.disconnect bridge).run before = (result, after)) : Tenancy after handles
  | finalize {before after : World} {handles : Multiset InterpreterId} {id : InterpreterId}
      {result : Except Fault Unit} (front : Tenancy before handles) (held : id ∈ handles)
      (ran : (finalize id).run before = (result, after)) : Tenancy after handles

/-- An interpreter occupies the thread: a handle to it is held, and it has not been torn down. -/
structure World.Occupies (world : World) (handles : Multiset InterpreterId) (id : InterpreterId) :
    Prop where
  held : id ∈ handles
  standing : (world.interpreter id).finalized = false ∨ (world.queue id).canReserve = false

/-- What holds of handles at any time: each is counted, and what occupies the thread is bound to
it. -/
structure World.Tenanted (world : World) (handles : Multiset InterpreterId) : Prop where
  counted : ∀ id, (world.interpreter id).owners = handles.count id
  bound : ∀ id, world.Occupies handles id → world.current = some id
  occupied : ∀ id ∈ handles, world.current = some id → world.Occupies handles id

namespace World.Tenanted

/-- The current interpreter is the one that occupies the thread. -/
theorem current_iff (tenanted : world.Tenanted handles) :
    current?.run world = (.ok (some id), world) ↔ world.Occupies handles id := by
  rw [run_current?, Prod.mk.injEq, and_iff_left rfl, Except.ok.injEq, Option.filter_eq_some_iff,
    decide_eq_true_eq, tenanted.counted, Multiset.count_pos]
  exact ⟨fun ⟨bound, held⟩ => tenanted.occupied id held bound,
    fun occupies => ⟨tenanted.bound id occupies, occupies.held⟩⟩

/-- There is no current interpreter if none occupies the thread. -/
theorem current_none (tenanted : world.Tenanted handles)
    (free : ∀ id, ¬world.Occupies handles id) : current?.run world = (.ok none, world) := by
  rcases found : world.current.filter fun id => 0 < (world.interpreter id).owners with _ | id
  · rw [run_current?, found]
  · refine absurd (tenanted.current_iff.mp ?_) (free id)
    rw [run_current?, found]

/-! ## One step -/

/-- Handles are held to fewer interpreters, and those that go on being held go on as they were. -/
theorem of_occupies (tenanted : before.Tenanted handles) {later : Multiset InterpreterId}
    (counted : ∀ id, (after.interpreter id).owners = later.count id)
    (current : after.current = before.current) (fewer : ∀ id ∈ later, id ∈ handles)
    (same : ∀ id ∈ later, ((after.interpreter id).finalized = false ∨
        (after.queue id).canReserve = false) ↔
      ((before.interpreter id).finalized = false ∨ (before.queue id).canReserve = false)) :
    after.Tenanted later := by
  refine ⟨counted, fun id occupies => ?_, fun id held bound => ⟨held, (same id held).mpr ?_⟩⟩
  · rw [current]
    exact tenanted.bound id
      ⟨fewer id occupies.held, (same id occupies.held).mp occupies.standing⟩
  · rw [current] at bound
    exact (tenanted.occupied id (fewer id held) bound).standing

theorem stands (tenanted : before.Tenanted handles) (stands : before.Stands after) :
    after.Tenanted handles := by
  refine tenanted.of_occupies (fun id => ?_) stands.current (fun _ => id) fun id _ => ?_
  · rw [stands.owners, tenanted.counted]
  · rw [stands.finalized, stands.canReserve]

/-- Another handle is taken to an interpreter, or one is given up. -/
theorem recount (tenanted : world.Tenanted handles) {later : Multiset InterpreterId}
    (count : Nat → Nat) (created : id.number < world.interpreters.size)
    (fewer : ∀ other ∈ later, other ∈ handles)
    (here : count (handles.count id) = later.count id)
    (elsewhere : ∀ other, id ≠ other → handles.count other = later.count other) :
    (world.updateInterpreter id fun entry => { entry with owners := count entry.owners }).Tenanted
      later := by
  refine tenanted.of_occupies (fun other => ?_) rfl fewer fun other _ => ?_
  · by_cases same : id = other
    · subst same
      rw [interpreter_updateInterpreter _ created]
      dsimp only
      rw [tenanted.counted, here]
    · rw [interpreter_updateInterpreter_other world _ same, tenanted.counted, elsewhere other same]
  · have finalized : ((world.updateInterpreter id fun entry =>
        { entry with owners := count entry.owners }).interpreter other).finalized =
          (world.interpreter other).finalized :=
      read_updateInterpreter Interpreter.finalized world id other fun _ => rfl
    have queue : (world.updateInterpreter id fun entry =>
        { entry with owners := count entry.owners }).queue other = world.queue other :=
      read_updateInterpreter Interpreter.queue world id other fun _ => rfl
    rw [finalized, queue]

theorem created (tenanted : world.Tenanted handles) (held : id ∈ handles) :
    id.number < world.interpreters.size := by
  refine created_of_owners ?_
  rw [tenanted.counted]
  exact Multiset.count_pos.mpr held

theorem retain (tenanted : world.Tenanted handles) (held : id ∈ handles) :
    (world.updateInterpreter id fun entry => { entry with owners := entry.owners + 1 }).Tenanted
      (handles + {id}) := by
  refine tenanted.recount (· + 1) (tenanted.created held) (fun other member => ?_) ?_
    fun other apart => ?_
  · rcases Multiset.mem_add.mp member with before | new
    · exact before
    · rwa [Multiset.mem_singleton.mp new]
  · simp
  · simp [Ne.symm apart]

theorem lower (tenanted : world.Tenanted (handles + {id})) :
    (world.lowered id).Tenanted handles := by
  have held : id ∈ handles + {id} := by simp
  rw [lowered]
  refine tenanted.recount (· - 1) (tenanted.created held) (fun other member => ?_) ?_
    fun other apart => ?_
  · exact Multiset.mem_add.mpr (.inl member)
  · simp
  · simp [Ne.symm apart]

/-- An interpreter is finalized.  If it has not been before, then it is the one that is bound. -/
theorem finalize (tenanted : world.Tenanted handles) (created : id.number < world.interpreters.size)
    (working : (world.interpreter id).finalized = false → world.current = some id) :
    ((Op.finalize id).run world).2.Tenanted handles := by
  have owners : ∀ other, ((closing world id).interpreter other).owners = handles.count other :=
    fun other => (owners_closing world id other).trans (tenanted.counted other)
  have here : ((closing world id).interpreter id).finalized = true := by
    rw [closing, interpreter_updateInterpreter _ created]
  have elsewhere : ∀ other, id ≠ other →
      (closing world id).interpreter other = world.interpreter other :=
    fun other => interpreter_updateInterpreter_other world _
  rw [run_finalize_eq]
  split
  · exact tenanted
  · rename_i standing
    have bound := working (Bool.eq_false_of_not_eq_true standing)
    split
    · rename_i room
      have flushed := stands_flushed (closing world id) id
      have torn := stands_tornDown (Custody.flushed (closing world id) id) id
      refine ⟨fun other => ?_, fun other occupies => ?_, fun other _ current => ?_⟩
      · exact (torn.owners other).trans ((flushed.owners other).trans (owners other))
      · -- What has occupied the thread is what has been torn down.
        have standing := occupies.standing
        have finalized := (torn.finalized other).trans (flushed.finalized other)
        have reserve := (torn.canReserve other).trans
          ((flushed.canReserve other).trans (canReserve_closing world id other))
        rw [finalized, reserve] at standing
        by_cases same : id = other
        · subst same
          rw [here, room] at standing
          simp at standing
        · rw [elsewhere other same] at standing
          have other' := tenanted.bound other ⟨occupies.held, standing⟩
          rw [bound, Option.some.injEq] at other'
          exact absurd other' same
      · rw [torn.current] at current
        cases current
    · rename_i stuck
      refine tenanted.of_occupies owners rfl (fun _ member => member) fun other _ => ?_
      rw [canReserve_closing]
      by_cases same : id = other
      · subst same
        rw [Bool.eq_false_of_not_eq_true stuck]
        simp
      · rw [elsewhere other same]

theorem unfinalized (tenanted : world.Tenanted handles) (held : id ∈ handles)
    (working : (world.interpreter id).finalized = false) : world.current = some id :=
  tenanted.bound id ⟨held, .inl working⟩

/-- A handle is given up, perhaps the last one. -/
theorem drop (tenanted : world.Tenanted (handles + {id})) :
    ((dropInterpreter id).run world).2.Tenanted handles := by
  have held : id ∈ handles + {id} := by simp
  have created := tenanted.created held
  rw [run_dropInterpreter]
  split
  · have finalized : ((world.lowered id).interpreter id).finalized =
        (world.interpreter id).finalized :=
      read_updateInterpreter Interpreter.finalized world id id fun _ => rfl
    have created' : id.number < (world.lowered id).interpreters.size := by
      rwa [lowered, updateInterpreter, Array.size_modify]
    refine (tenanted.lower.finalize created' fun working => ?_).stands (stands_abandoned _ id)
    rw [finalized] at working
    exact tenanted.unfinalized held working
  · exact tenanted.lower

end World.Tenanted

/-! ## Starting -/

section

variable {configuration : Configuration}

theorem run_start_of_bound (bound : current?.run world = (.ok (some id), world)) :
    (start configuration).run world = (.ok (.error .alreadyBound), world) := by
  rw [start, Operation.run_bind_of_ok bound]
  rfl

/-- The first variable that is missing is named. -/
theorem run_start_of_missing (free : current?.run world = (.ok none, world)) {name : String}
    (missing : configuration.required.find? (fun name => (world.environment.value? name).isNone) =
      some name) :
    (start configuration).run world = (.ok (.error (.missingVariable name)), world) := by
  rw [start, Operation.run_bind_of_ok free]
  dsimp only
  rw [Operation.run_bind_of_ok (run_world world), missing]
  rfl

/-- An interpreter as it is when it has been started. -/
def newcomer (configuration : Configuration) (main : Ref) : Interpreter where
  owners := 1
  main := main
  modules := [("__main__", main)]
  extensions := .empty
  hooks := []
  queue := .create configuration.batch
  finalized := false

/-- The world in which an interpreter has just been started. -/
def World.started (world : World) (configuration : Configuration) : World :=
  let (main, world) := world.create (.module ⟨"__main__", configuration.programName, [], none⟩)
  let world := world.retain main
  { world with
    interpreters := world.interpreters.push (newcomer configuration main)
    current := some ⟨world.interpreters.size⟩ }.note .debug
      s!"interpreter '{configuration.programName}' initialized"

theorem run_start_of_free (free : current?.run world = (.ok none, world))
    (given : configuration.required.find? (fun name => (world.environment.value? name).isNone) =
      none) :
    (start configuration).run world =
      (.ok (.ok ⟨world.interpreters.size⟩), world.started configuration) := by
  rw [start, Operation.run_bind_of_ok free]
  dsimp only
  rw [Operation.run_bind_of_ok (run_world world), given]
  rfl

/-- How starting ends: an interpreter is current already, a variable is missing, or an interpreter
is started. -/
theorem run_start (world : World) (configuration : Configuration) :
    (∃ id, current?.run world = (.ok (some id), world) ∧
      (start configuration).run world = (.ok (.error .alreadyBound), world)) ∨
    current?.run world = (.ok none, world) ∧
      ((∃ name, (start configuration).run world = (.ok (.error (.missingVariable name)), world)) ∨
        (start configuration).run world =
          (.ok (.ok ⟨world.interpreters.size⟩), world.started configuration)) := by
  rcases found : world.current.filter fun id => 0 < (world.interpreter id).owners with _ | id
  · have free : current?.run world = (.ok none, world) := by rw [run_current?, found]
    refine .inr ⟨free, ?_⟩
    cases missing : configuration.required.find? fun name =>
      (world.environment.value? name).isNone with
    | none => exact .inr (run_start_of_free free missing)
    | some name => exact .inl ⟨name, run_start_of_missing free missing⟩
  · have bound : current?.run world = (.ok (some id), world) := by rw [run_current?, found]
    exact .inl ⟨id, bound, run_start_of_bound bound⟩

/-- What is started is started when there is no current interpreter. -/
theorem eq_started (ran : (start configuration).run world = (.ok (.ok id), after)) :
    current?.run world = (.ok none, world) ∧ id = ⟨world.interpreters.size⟩ ∧
      after = world.started configuration := by
  rcases run_start world configuration with ⟨_, _, refused⟩ | ⟨free, ⟨_, refused⟩ | starts⟩
  · rw [ran] at refused
    cases refused
  · rw [ran] at refused
    cases refused
  · rw [ran] at starts
    cases starts
    exact ⟨free, rfl, rfl⟩

/-- An interpreter that is not started leaves nothing behind. -/
theorem eq_of_refused {error : StartError}
    (ran : (start configuration).run world = (.ok (.error error), after)) : after = world := by
  rcases run_start world configuration with ⟨_, _, refused⟩ | ⟨_, ⟨_, refused⟩ | starts⟩
  · rw [ran] at refused
    cases refused
    rfl
  · rw [ran] at refused
    cases refused
    rfl
  · rw [ran] at starts
    cases starts

end

/-- An interpreter that has been added is the last one. -/
theorem World.interpreter_started (world : World) (configuration : Configuration)
    (other : InterpreterId) : (world.started configuration).interpreter other =
      if other.number = world.interpreters.size then newcomer configuration world.heap.next
      else world.interpreter other := by
  show ((world.interpreters.push _)[other.number]?).getD default = _
  rw [Array.getElem?_push]
  split
  · rfl
  · rfl

/-- What is started has no handle yet. -/
theorem World.Tenanted.fresh (tenanted : world.Tenanted handles) :
    (⟨world.interpreters.size⟩ : InterpreterId) ∉ handles := fun held =>
  Nat.lt_irrefl _ (tenanted.created held)

/-- What is started is counted once and occupies the thread, if nothing else does. -/
theorem World.Tenanted.start (tenanted : world.Tenanted handles)
    (free : ∀ id, ¬world.Occupies handles id) (configuration : Configuration) :
    (world.started configuration).Tenanted (handles + {⟨world.interpreters.size⟩}) := by
  have entries := world.interpreter_started configuration
  have here : (world.started configuration).interpreter ⟨world.interpreters.size⟩ =
      newcomer configuration world.heap.next := by
    rw [entries, if_pos rfl]
  have elsewhere : ∀ other : InterpreterId, other ≠ ⟨world.interpreters.size⟩ →
      (world.started configuration).interpreter other = world.interpreter other := by
    intro other apart
    rw [entries, if_neg fun same => apart (by cases other; cases same; rfl)]
  refine ⟨fun other => ?_, fun other occupies => ?_, fun other held current => ?_⟩
  · by_cases new : other = ⟨world.interpreters.size⟩
    · subst new
      rw [here, Multiset.count_add, Multiset.count_singleton_self,
        Multiset.count_eq_zero.mpr tenanted.fresh]
      rfl
    · rw [elsewhere other new, tenanted.counted]
      simp [new]
  · by_cases new : other = ⟨world.interpreters.size⟩
    · rw [new]
      rfl
    · refine absurd ⟨?_, ?_⟩ (free other)
      · simpa [new] using occupies.held
      · have standing := occupies.standing
        rwa [queue, elsewhere other new] at standing
  · have new : ⟨world.interpreters.size⟩ = other := Option.some.inj current
    rw [← new]
    exact ⟨by simp, .inl (by rw [here]; rfl)⟩

/-! ## Any number of steps -/

theorem Tenancy.tenanted (tenancy : Tenancy world handles) : world.Tenanted handles := by
  induction tenancy with
  | initial =>
    exact ⟨fun _ => rfl, fun id occupies => absurd occupies.held (Multiset.notMem_zero id),
      fun id held => absurd held (Multiset.notMem_zero id)⟩
  | elapse front stands ih => exact ih.stands stands
  | @start before after handles id configuration front ran ih =>
    obtain ⟨free, rfl, rfl⟩ := eq_started ran
    exact ih.start (fun other occupies => by
      have found := ih.current_iff.mpr occupies
      rw [free] at found
      cases found) configuration
  | refused configuration front ran ih =>
    rw [eq_of_refused ran]
    exact ih
  | retain front held ran ih =>
    cases ran
    exact ih.retain held
  | current front found ran ih =>
    cases ran
    exact ih.retain (ih.current_iff.mp found).held
  | @connect before after handles id bridge front held ran ih =>
    obtain ⟨registry, middle, stands, connected⟩ := Program.run_connect before id
    rw [connected] at ran
    cases ran
    exact (ih.stands stands).retain held
  | drop front ran ih =>
    have after := ih.drop
    rwa [ran] at after
  | @disconnect before after handles bridge result front ran ih =>
    have after := ih.drop.stands (World.stands_dropRegistry _ bridge.registry)
    rw [Program.run_disconnect] at ran
    cases ran
    exact after
  | finalize front held ran ih =>
    have after := ih.finalize (ih.created held) (ih.unfinalized held)
    rwa [ran] at after

/-- Dropping a handle to a finalized interpreter leaves the thread as it is. -/
theorem current_drop_of_finalized
    (finalized : (world.interpreter id).finalized = true) :
    ((dropInterpreter id).run world).2.current = world.current := by
  have same : ((world.lowered id).interpreter id).finalized = true := by
    rw [← finalized]
    exact World.read_updateInterpreter Interpreter.finalized world id id fun _ => rfl
  rw [run_dropInterpreter]
  split
  · rw [run_finalize_eq, if_pos same]
    exact (World.stands_abandoned _ id).current
  · rfl

namespace World.Tenanted

/-- An interpreter is started when the thread is free and no variable is missing. -/
theorem exists_started (tenanted : world.Tenanted handles) (free : ∀ id, ¬world.Occupies handles id)
    {configuration : Configuration}
    (given : ∀ name ∈ configuration.required, (world.environment.value? name).isSome = true) :
    ∃ id after, (Op.start configuration).run world = (.ok (.ok id), after) ∧ id ∉ handles ∧
      (after.interpreter id).finalized = false ∧ after.Occupies (handles + {id}) id ∧
      current?.run after = (.ok (some id), after) := by
  have complete : configuration.required.find? (fun name =>
      (world.environment.value? name).isNone) = none := by
    rw [List.find?_eq_none]
    intro name member
    simpa [← Option.isSome_iff_ne_none] using given name member
  have working : ((world.started configuration).interpreter
      ⟨world.interpreters.size⟩).finalized = false := by
    rw [world.interpreter_started, if_pos rfl]
    rfl
  have occupies : (world.started configuration).Occupies
      (handles + {⟨world.interpreters.size⟩}) ⟨world.interpreters.size⟩ :=
    ⟨by simp, .inl working⟩
  exact ⟨_, _, run_start_of_free (tenanted.current_none free) complete, tenanted.fresh, working,
    occupies, (tenanted.start free configuration).current_iff.mpr occupies⟩

/-- An interpreter whose queue can be worked off gives the thread free when it is finalized. -/
theorem exists_ended (tenanted : world.Tenanted handles) (held : id ∈ handles)
    (working : (world.interpreter id).finalized = false)
    (room : (world.queue id).canReserve = true) :
    ∃ after, (Op.finalize id).run world = (.ok (), after) ∧
      ∀ other, ¬after.Occupies handles other := by
  have ran : (Op.finalize id).run world =
      (.ok (), (Custody.flushed (closing world id) id).tornDown id) := by
    rw [run_finalize_eq, working, room]
    rfl
  have after := tenanted.finalize (tenanted.created held) (tenanted.unfinalized held)
  rw [ran] at after
  refine ⟨_, ran, fun other occupies => ?_⟩
  have current := after.bound other occupies
  rw [(stands_tornDown _ id).current] at current
  cases current

/-- Otherwise it goes on occupying the thread. -/
theorem exists_stuck (tenanted : world.Tenanted handles) (held : id ∈ handles)
    (working : (world.interpreter id).finalized = false)
    (stuck : (world.queue id).canReserve = false) :
    ∃ after, (Op.finalize id).run world = (.error (.panicked .batchTooLarge), after) ∧
      (after.interpreter id).finalized = true ∧ after.Occupies handles id := by
  have ran : (Op.finalize id).run world = (.error (.panicked .batchTooLarge), closing world id) := by
    rw [run_finalize_eq, working, stuck]
    rfl
  refine ⟨_, ran, ?_, held, .inr ?_⟩
  · rw [closing, interpreter_updateInterpreter _ (tenanted.created held)]
  · rw [canReserve_closing, stuck]

/-- Another interpreter stays the current one when a handle to a finalized one is dropped. -/
theorem current_dropped (tenanted : world.Tenanted handles) {old : InterpreterId}
    (held : old ∈ handles) (finalized : (world.interpreter old).finalized = true)
    (apart : id ≠ old) (occupies : world.Occupies handles id) {result : Except Fault Unit}
    (ran : (dropInterpreter old).run world = (result, after) ∨
      ∃ registry, (Program.disconnect ⟨old, registry⟩).run world = (result, after)) :
    current?.run after = (.ok (some id), after) := by
  obtain ⟨rest, split⟩ := Multiset.exists_cons_of_mem held
  rw [← Multiset.singleton_add, add_comm] at split
  have member : id ∈ rest := by
    have among := occupies.held
    rw [split] at among
    simpa [apart] using among
  have current := (current_drop_of_finalized finalized).trans (tenanted.bound id occupies)
  rw [split] at tenanted
  have dropped := tenanted.drop
  have same : after.Tenanted rest ∧ after.current = some id := by
    rcases ran with ran | ⟨registry, ran⟩
    · rw [ran] at dropped current
      exact ⟨dropped, current⟩
    · rw [Program.run_disconnect] at ran
      cases ran
      have stands := stands_dropRegistry ((dropInterpreter old).run world).2 registry
      exact ⟨dropped.stands stands, stands.current.trans current⟩
  exact same.1.current_iff.mpr (same.1.occupied id member same.2)

end World.Tenanted

/-- What holds of the interpreters that clients hold handles to. -/
structure World.Exclusive (world : World) (handles : Multiset InterpreterId) : Prop where
  /-- One interpreter at most occupies the thread. -/
  unique : ∀ first second, world.Occupies handles first → world.Occupies handles second →
    first = second
  /-- So at most one that is held is not finalized. -/
  working : ∀ first ∈ handles, ∀ second ∈ handles, (world.interpreter first).finalized = false →
    (world.interpreter second).finalized = false → first = second
  /-- What occupies the thread is what is found as the current interpreter. -/
  current : ∀ id, current?.run world = (.ok (some id), world) ↔ world.Occupies handles id
  free : (∀ id, ¬world.Occupies handles id) → current?.run world = (.ok none, world)
  /-- If all queues can be worked off, this is what is held and not finalized. -/
  reserved : (∀ id, (world.queue id).canReserve = true) → ∀ id, world.Occupies handles id ↔
    id ∈ handles ∧ (world.interpreter id).finalized = false
  /-- Nothing else is started in the meantime. -/
  bound : ∀ id, world.Occupies handles id → ∀ configuration,
    (start configuration).run world = (.ok (.error .alreadyBound), world)
  /-- The first variable that is missing keeps an interpreter from being started. -/
  missing : (∀ id, ¬world.Occupies handles id) → ∀ configuration front name back,
    configuration.required = front ++ name :: back →
    (∀ other ∈ front, (world.environment.value? other).isSome = true) →
    world.environment.value? name = none →
      (start configuration).run world = (.ok (.error (.missingVariable name)), world)
  /-- A new interpreter is started otherwise, and occupies the thread. -/
  starts : (∀ id, ¬world.Occupies handles id) → ∀ configuration,
    (∀ name ∈ configuration.required, (world.environment.value? name).isSome = true) →
      ∃ id after, (start configuration).run world = (.ok (.ok id), after) ∧ id ∉ handles ∧
        (after.interpreter id).finalized = false ∧ after.Occupies (handles + {id}) id ∧
        current?.run after = (.ok (some id), after)
  /-- What is finalized gives the thread free if its queue can be worked off. -/
  ends : ∀ id ∈ handles, (world.interpreter id).finalized = false →
    (world.queue id).canReserve = true → ∃ after, (finalize id).run world = (.ok (), after) ∧
      ∀ other, ¬after.Occupies handles other
  /-- Otherwise it goes on occupying it, though it is finalized. -/
  stuck : ∀ id ∈ handles, (world.interpreter id).finalized = false →
    (world.queue id).canReserve = false → ∃ after,
      (finalize id).run world = (.error (.panicked .batchTooLarge), after) ∧
        (after.interpreter id).finalized = true ∧ after.Occupies handles id
  /-- It is not finalized again. -/
  once : ∀ id ∈ handles, (world.interpreter id).finalized = true →
    (finalize id).run world = (.ok (), world)
  /-- Its handles are dropped without disturbing another interpreter. -/
  spared : ∀ old ∈ handles, (world.interpreter old).finalized = true → ∀ id, id ≠ old →
    world.Occupies handles id → ∀ result after,
      (dropInterpreter old).run world = (result, after) ∨
        (∃ registry, (Program.disconnect ⟨old, registry⟩).run world = (result, after)) →
      current?.run after = (.ok (some id), after)

/-- Whatever is done with handles to interpreters, one interpreter at most occupies the thread. -/
theorem Tenancy.exclusively_bound (tenancy : Tenancy world handles) : world.Exclusive handles := by
  have tenanted := tenancy.tenanted
  have unique : ∀ first second, world.Occupies handles first → world.Occupies handles second →
      first = second := by
    intro first second one other
    have same := (tenanted.bound first one).symm.trans (tenanted.bound second other)
    exact Option.some.inj same
  exact
    { unique
      working := fun first one second other open' still =>
        unique first second ⟨one, .inl open'⟩ ⟨other, .inl still⟩
      current := fun id => tenanted.current_iff
      free := tenanted.current_none
      reserved := fun room id => by
        refine ⟨fun occupies => ⟨occupies.held, ?_⟩, fun ⟨held, working⟩ => ⟨held, .inl working⟩⟩
        exact occupies.standing.resolve_right (by rw [room id]; simp)
      bound := fun id occupies configuration =>
        run_start_of_bound (tenanted.current_iff.mpr occupies)
      missing := fun free configuration front name back required given missing => by
        refine run_start_of_missing (tenanted.current_none free) ?_
        rw [required, List.find?_eq_some_iff_append]
        refine ⟨by rw [missing]; rfl, front, back, rfl, fun other member => ?_⟩
        simpa using given other member
      starts := fun free configuration given => tenanted.exists_started free given
      ends := fun id held working room => tenanted.exists_ended held working room
      stuck := fun id held working stuck => tenanted.exists_stuck held working stuck
      once := fun id held finalized => by rw [run_finalize_eq, if_pos finalized]
      spared := fun old held finalized id apart occupies result after ran =>
        tenanted.current_dropped held finalized apart occupies ran }

/-- An interpreter is started, finalized and held on to, and another one is started. -/
theorem Tenancy.exclusively_bound_succeeded : ∃ world, Tenancy world ({⟨0⟩} + {⟨1⟩}) ∧
    (world.interpreter ⟨0⟩).finalized = true ∧ (world.interpreter ⟨1⟩).finalized = false ∧
    world.Exclusive ({⟨0⟩} + {⟨1⟩}) := by
  generalize start : World.initial.started ⟨"", [], 128⟩ = first
  generalize ended : ((Op.finalize ⟨0⟩).run first).2 = second
  have facts : (first.interpreters.size, second.interpreters.size, (second.interpreter ⟨0⟩).finalized,
      second.current) = (1, 1, true, none) := by
    subst ended start
    cbv
  simp only [Prod.mk.injEq] at facts
  obtain ⟨_, size, finalized, unbound⟩ := facts
  have tenancy : Tenancy first {⟨0⟩} := by
    have begun := Tenancy.initial.start ⟨"", [], 128⟩ (run_start_of_free rfl rfl)
    rwa [zero_add, start] at begun
  have tenancy' : Tenancy second {⟨0⟩} := by
    refine tenancy.finalize (by simp) (Prod.ext rfl ended)
  have free : current?.run second = (.ok none, second) := by
    rw [run_current?, unbound]
    rfl
  have again : Tenancy _ ({⟨0⟩} + {⟨second.interpreters.size⟩}) :=
    tenancy'.start ⟨"", [], 128⟩ (run_start_of_free free rfl)
  rw [size] at again
  have entries := World.interpreter_started second ⟨"", [], 128⟩
  refine ⟨_, again, ?_, ?_, again.exclusively_bound⟩
  · rw [entries, if_neg (by rw [size]; decide), finalized]
  · rw [entries, if_pos (by rw [size])]
    rfl

/-- An interpreter whose queue can never be worked off is bound after it has been finalized. -/
theorem Tenancy.bound_finalized : ∃ world, Tenancy world {⟨0⟩} ∧
    (world.interpreter ⟨0⟩).finalized = true ∧ current?.run world = (.ok (some ⟨0⟩), world) ∧
    (Op.start ⟨"", [], 1⟩).run world = (.ok (.error .alreadyBound), world) := by
  generalize start : World.initial.started ⟨"", [], 4611686018427387904⟩ = first
  have facts : ((first.interpreter ⟨0⟩).finalized, (first.queue ⟨0⟩).canReserve) =
      (false, false) := by
    subst start
    cbv
  simp only [Prod.mk.injEq] at facts
  obtain ⟨working, stuck⟩ := facts
  have tenancy : Tenancy first {⟨0⟩} := by
    have begun := Tenancy.initial.start ⟨"", [], 4611686018427387904⟩ (run_start_of_free rfl rfl)
    rwa [zero_add, start] at begun
  obtain ⟨after, ran, finalized, occupies⟩ :=
    tenancy.tenanted.exists_stuck (by simp) working stuck
  have later : Tenancy after {⟨0⟩} := tenancy.finalize (by simp) ran
  have current := later.tenanted.current_iff.mpr occupies
  exact ⟨after, later, finalized, current, run_start_of_bound current⟩

end HostBridge
