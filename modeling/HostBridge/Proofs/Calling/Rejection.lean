import HostBridge.Proofs.Calling.Refusal
import HostBridge.Proofs.Calling.Run
import HostBridge.Proofs.Ownership.Lending
import HostBridge.Proofs.Session.Reachable

/-!
# Calls that are rejected

A call is rejected for the number of its arguments, for keyword arguments that the
slot does not take, or for an argument that cannot be converted.  No host code has
run then, and nothing is left of the call: the owner of a function has been taken
and given back, and the instance that a call of a type has allocated has been
released.
-/

namespace HostBridge

variable {program : Program}

/-! ## What a call comes to -/

/-- What a function hands to its entry point. -/
def Owner.object : Owner → Ref
  | .bound ref => ref
  | .module ref => ref

/-- The slot that the entry point of a function leads to: a method of a wrapper, a function of
a module, or a function that a capsule holds. -/
inductive World.Routes (world : World) (self : Ref) : Entry → RegistryId → Slot → Prop
  | method {id : Nat} {content : Held} {bridged : BridgedType} {slot : Slot}
      (wrapper : world.heap.wrapper? self = some (content, bridged))
      (found : bridged.slots[id]? = some slot) : Routes world self (.slot id) bridged.registry slot
  | module {id : Nat} {registry : RegistryId} {slots : List Slot} {slot : Slot}
      (state : world.heap.moduleState? self = some (.slotTable registry slots))
      (found : slots[id]? = some slot) : Routes world self (.slot id) registry slot
  | adHoc {registry : RegistryId} {slot : Slot}
      (context : world.heap.capsule? self = some (.adHoc registry slot)) :
    Routes world self .adHoc registry slot

namespace World.Routes

variable {world : World} {self : Ref} {entry : Entry} {registry : RegistryId} {slot : Slot}

theorem present (routes : world.Routes self entry registry slot) :
    ∃ cell, world.heap.cell? self = some cell := by
  cases found : world.heap.cell? self with
  | some cell => exact ⟨cell, rfl⟩
  | none =>
    have nothing : world.heap.body self = .none := by simp only [Heap.body, found]
    cases routes with
    | method wrapper =>
      obtain ⟨cell, _, _, present, _⟩ := Heap.wrapper?_eq_some.mp wrapper
      rw [found] at present
      cases present
    | module state => simp [Heap.moduleState?, Heap.module?, nothing] at state
    | adHoc context => simp [Heap.capsule?, nothing] at context

/-- Objects that are added change no way. -/
theorem mono {later : World} (more : world.Extends later)
    (routes : world.Routes self entry registry slot) : later.Routes self entry registry slot := by
  cases routes with
  | method wrapper found => exact .method (more.wrapper? wrapper) found
  | module state found =>
    obtain ⟨contents, reading, table⟩ := Option.bind_eq_some_iff.mp state
    have body := more.body (Heap.module?_eq_some reading) (by simp)
    refine .module ?_ found
    rwa [Heap.moduleState?, Heap.module?, body]
  | adHoc context =>
    obtain ⟨name, reading⟩ := Heap.exists_capsule context
    refine .adHoc ?_
    rw [Heap.capsule?, more.body reading (by simp)]

end World.Routes

namespace Program

open Op

variable {world : World} {callback : Callback} {self : Ref} {entry : Entry}
  {registry : RegistryId} {slot : Slot} {positional : List Ref} {keywords : Option Ref}
  {fault : Fault}

theorem run_invoke_note_of_refused {site : CallSite} {level : Level} {text : String}
    (refused : program.arguments world.heap registry slot positional keywords = .error fault) :
    (program.invoke callback registry slot site positional keywords).run (world.note level text) =
      (.error fault, { world with log := (world.note level text).log }) := by
  have noted : program.arguments (world.note level text).heap registry slot positional keywords =
    .error fault := refused
  exact run_invoke_of_refused noted

/-- An entry point whose arguments are refused does nothing but write a log record, which is
the same whatever the program is. -/
theorem run_runEntry_of_refused (routes : world.Routes self entry registry slot)
    (alive : world.registryAlive registry = true) (positional : List Ref) (keywords : Option Ref)
    (fault : Fault) :
    ∃ log, ∀ (program : Program) (callback : Callback),
      program.arguments world.heap registry slot positional keywords = .error fault →
        (program.runEntry callback entry self positional keywords).run world =
          (.error fault, { world with log }) := by
  cases routes with
  | @method id content bridged slot wrapper found =>
    refine ⟨(world.note .trace s!"dispatch slot {id} ({slot.exposed})").log,
      fun program callback refused => ?_⟩
    rw [runEntry, run_dispatch_wrapper wrapper alive found]
    exact run_invoke_note_of_refused refused
  | @module id registry slots slot state found =>
    refine ⟨(world.note .trace s!"dispatch slot {id} ({slot.exposed})").log,
      fun program callback refused => ?_⟩
    rw [runEntry, run_dispatch_module state alive found]
    exact run_invoke_note_of_refused refused
  | adHoc context =>
    refine ⟨world.log, fun program callback refused => ?_⟩
    rw [runEntry, run_dispatchAdHoc context alive]
    exact run_invoke_of_refused refused

/-! ## Functions -/

/-- A function whose owner is there runs its entry point on it. -/
theorem run_functionOwner {owner : Owner} {cell : Cell}
    (present : world.heap.cell? owner.object = some cell) :
    (functionOwner owner).run world = (.ok owner.object, world.retain owner.object) := by
  cases owner with
  | bound ref => rfl
  | module ref =>
    have there : world.heap.holds ref = true := by
      rw [Heap.holds, Option.isSome_iff_exists]
      exact ⟨cell, present⟩
    rw [functionOwner, Operation.run_bind_of_ok (run_heap world), if_pos there]
    rfl

/-- The owner of a function is given back when the arguments are refused. -/
theorem rejected_function {held : Multiset Ref} (sound : world.Sound program held)
    (tidy : world.Tidy) {owner : Owner}
    (routes : world.Routes owner.object entry registry slot)
    (alive : world.registryAlive registry = true)
    (refuses : program.Refuses world.heap registry slot positional keywords)
    (used : ∀ ref ∈ positional, ref.place < world.heap.size)
    (keywordsUsed : ∀ ref ∈ keywords, ref.place < world.heap.size) :
    ∃ fault after, world.Untouched after ∧
      ∀ (other : Program) (callback : Callback), program.Declares other →
        (do
          let self ← functionOwner owner
          (other.runEntry callback entry self positional keywords).always (·.release self)).run
            world = (.error fault, after) := by
  obtain ⟨cell, present⟩ := routes.present
  generalize taken : world.retain owner.object = retained
  have lent : world.Lends retained {owner.object} := by
    rw [← taken]
    have lent := (World.Lends.refl world).retain present
    rwa [zero_add] at lent
  have enlarges : world.heap.Enlarges retained.heap :=
    sound.enlarges lent.size fun ref used => lent.body used
  obtain ⟨fault, refused, _⟩ := refuses_iff.mp (refuses.enlarge enlarges used keywordsUsed)
  have routes' : retained.Routes owner.object entry registry slot := by
    rw [← taken]
    exact routes.mono (.retain world owner.object)
  have alive' : retained.registryAlive registry = true := by
    rw [← taken]
    exact alive
  obtain ⟨log, ran⟩ := run_runEntry_of_refused routes' alive' positional keywords fault
  refine ⟨fault, ({ retained with log } : World).release owner.object, ?_, ?_⟩
  · have noted : world.Lends { retained with log } (0 + ([owner.object] : List Ref)) := by
      rw [zero_add]
      exact lent.of_cells (fun _ => rfl) (le_refl _) rfl
    exact (noted.releaseAll tidy).untouched
  · intro other callback declares
    rw [Operation.run_bind_of_ok (run_functionOwner present), taken]
    refine run_always_of_run (ran other callback ?_) _
    rw [declares.arguments, refused]

/-! ## Types -/

/-- The instance that a call of a bridged type works on: it does not get in the way of reading
what was there before, and releasing it undoes its allocation. -/
theorem allocateWrapper_untouched {held : Multiset Ref} (sound : world.Sound program held)
    (tidy : world.Tidy) {type : Ref} {bridged : BridgedType}
    (shape : world.heap.bridgedType? type = some bridged)
    (alive : world.registryAlive bridged.registry = true) :
    ∃ self made content, (∀ other, program.Declares other →
        (other.allocateWrapper type).run world = (.ok self, made)) ∧
      made.heap.wrapper? self = some (content, bridged) ∧
      made.registryAlive bridged.registry = true ∧ world.heap.Enlarges made.heap ∧
      world.Untouched (made.release self) := by
  obtain ⟨contents, reading, context, synthesized⟩ := sound.wired.synthesized shape
  obtain ⟨cell, present, same⟩ := Heap.exists_cell_of_body reading (by simp)
  generalize zero : program.zero (.struct bridged.host) = value
  have grounded : ∀ ref ∈ value.references, ∃ cell, world.heap.cell? ref = some cell := by
    intro ref member
    rw [← zero] at member
    rw [references_zeroWith (references_zeroStruct _) _ ref member]
    obtain ⟨first, found, _⟩ := sound.grounded .none ⟨1, .none⟩ rfl
    exact ⟨first, found⟩
  have taken : world.Lends (world.retainAll value.references) (0 + value.references) :=
    (World.Lends.refl world).retainAll _ grounded
  have lent := World.Lends.completed value _ _ taken
  generalize owned : (value.completed (world.retainAll value.references)).1 = content at lent
  generalize adopted : (value.completed (world.retainAll value.references)).2 = middle at lent
  rw [zero_add] at lent
  have ran : (adopt value).run world = (.ok content, middle) := by
    rw [← owned, ← adopted]
    rfl
  generalize retained : middle.retain type = later
  have lent' : world.Lends later (content.references + {type}) := by
    rw [← retained]
    exact lent.retain present
  generalize entered : (later.enter bridged.registry type (.owned content)).note .trace
    s!"allocated '{(later.enter bridged.registry type (.owned content)).heap.typeName
      later.heap.next}' instance" = made
  have heap : made.heap =
      later.heap.push (.instance type (some (.wrapper bridged.registry (.owned content)))) := by
    rw [← entered]
    rfl
  have bodies : ∀ ref : Ref, ref.place < world.heap.size →
      made.heap.body ref = world.heap.body ref := by
    intro ref used
    have old : ref ≠ later.heap.next := by
      rintro rfl
      exact absurd (Nat.lt_of_lt_of_le used lent'.size) (Nat.lt_irrefl _)
    rw [Heap.body, heap, Heap.cell?_push_other _ old]
    exact lent'.body used
  have size : world.heap.size ≤ made.heap.size := by
    rw [heap, Heap.size_push]
    exact lent'.size.trans (Nat.le_succ _)
  refine ⟨later.heap.next, made, .owned content, fun other declares => ?_, ?_, ?_,
    sound.enlarges size bodies, ?_⟩
  · rw [allocateWrapper, Operation.run_bind_of_ok (run_heap world), shape]
    dsimp only
    rw [Operation.run_bind_of_ok (run_liveRegistry alive), wrapCopy, declares.zero, zero,
      Operation.run_bind_of_ok ran, run_wrap, retained, entered]
  · have typed : made.heap.bridgedType? type = some bridged := by
      rw [Heap.bridgedType?_congr (bodies type (Heap.place_lt_size present)), shape]
    have new : made.heap.cell? later.heap.next =
        some ⟨1, .instance type (some (.wrapper bridged.registry (.owned content)))⟩ := by
      rw [heap, Heap.cell?_push_next]
    exact Heap.wrapper?_eq_some.mpr ⟨_, type, bridged.registry, new, rfl, typed⟩
  · have registries : later.registries = world.registries := congrArg Prod.fst lent'.surroundings
    have owners : (made.registry bridged.registry).owners =
        (later.registry bridged.registry).owners := by
      rw [← entered]
      exact World.read_updateRegistry Registry.owners _ _ _ (Registry.owners_updateRoster _)
    rw [World.registryAlive, owners, World.registry, registries]
    exact alive
  · have shown : world.Lends middle (Held.owned content).references := lent
    rw [← entered, ← retained]
    exact World.untouched_release_enter tidy shown present same (synthesized.finalizer context) _ _

/-- A constructor whose arguments are refused does nothing. -/
theorem run_construct_of_refused {content : Held} {bridged : BridgedType} {id code : Nat}
    (wrapper : world.heap.wrapper? self = some (content, bridged))
    (alive : world.registryAlive bridged.registry = true) (maker : bridged.maker = some id)
    (found : bridged.slots[id]? = some slot) (role : slot.role = .construct code)
    (refused : program.arguments world.heap bridged.registry slot positional keywords =
      .error fault) :
    (program.construct callback self positional keywords).run world = (.error fault, world) := by
  rw [construct, Operation.run_bind_of_ok (run_wrapperParts wrapper alive)]
  dsimp only
  rw [maker]
  dsimp only
  rw [Operation.run_bind_of_ok (run_typeSlot found), role]
  dsimp only
  rw [Operation.run_bind_of_ok (run_heap world)]
  refine Operation.run_bind_of_error ?_ _
  rw [run_ofExcept, refused]

/-- An instance is released when its constructor fails. -/
theorem run_instantiate_of_failed {type : Ref} {shape : TypeBody} {made : World}
    (allocated : (program.allocate shape type).run world = (.ok self, made))
    (failed : (program.runMaker callback shape self positional keywords).run made =
      (.error fault, made)) :
    (program.instantiate callback type shape positional keywords).run world =
      (.error fault, made.release self) := by
  rw [instantiate, Operation.run_bind_of_ok allocated]
  refine Operation.run_bind_of_error ?_ _
  rw [undoing, run_ofFunction, failed]

/-- The new instance is released when the arguments for the constructor are refused. -/
theorem rejected_constructor {held : Multiset Ref} (sound : world.Sound program held)
    (tidy : world.Tidy) {type : Ref} {shape : TypeBody} {bridged : BridgedType} {id : Nat}
    (reading : world.heap.body type = .type shape)
    (bridges : world.heap.bridgedType? type = some bridged)
    (alive : world.registryAlive bridged.registry = true) (maker : bridged.maker = some id)
    (found : bridged.slots[id]? = some slot)
    (refuses : program.Refuses world.heap bridged.registry slot positional keywords)
    (used : ∀ ref ∈ positional, ref.place < world.heap.size)
    (keywordsUsed : ∀ ref ∈ keywords, ref.place < world.heap.size) :
    ∃ fault after, world.Untouched after ∧
      ∀ (other : Program) (callback : Callback), program.Declares other →
        (other.instantiate callback type shape positional keywords).run world =
          (.error fault, after) := by
  obtain ⟨shape', reading', context, synthesized⟩ := sound.wired.synthesized bridges
  rw [reading, Body.type.injEq] at reading'
  subst reading'
  obtain ⟨code, slot', found', role⟩ := synthesized.construct context maker
  rw [found, Option.some.injEq] at found'
  subst found'
  obtain ⟨self, made, content, allocates, wrapper, alive', enlarges, untouched⟩ :=
    allocateWrapper_untouched sound tidy bridges alive
  obtain ⟨fault, refused, _⟩ := refuses_iff.mp (refuses.enlarge enlarges used keywordsUsed)
  refine ⟨fault, made.release self, untouched, fun other callback declares => ?_⟩
  obtain ⟨allocator, handler⟩ := synthesized.handlers context
  refine run_instantiate_of_failed ?_ ?_
  · rw [allocate, allocator]
    exact allocates other declares
  · rw [runMaker, handler, maker]
    refine run_construct_of_refused wrapper alive' maker found role ?_
    rw [declares.arguments, refused]

/-- The new instance is released when there are arguments, but no constructor. -/
theorem rejected_bare {held : Multiset Ref} (sound : world.Sound program held)
    (tidy : world.Tidy) {type : Ref} {shape : TypeBody} {bridged : BridgedType}
    (reading : world.heap.body type = .type shape)
    (bridges : world.heap.bridgedType? type = some bridged)
    (alive : world.registryAlive bridged.registry = true) (maker : bridged.maker = none)
    (given : positional ≠ [] ∨ ∃ dict, keywords = some dict ∧ 0 < world.heap.dictSize dict)
    (keywordsUsed : ∀ ref ∈ keywords, ref.place < world.heap.size) :
    ∃ fault after, world.Untouched after ∧
      ∀ (other : Program) (callback : Callback), program.Declares other →
        (other.instantiate callback type shape positional keywords).run world =
          (.error fault, after) := by
  obtain ⟨shape', reading', context, synthesized⟩ := sound.wired.synthesized bridges
  rw [reading, Body.type.injEq] at reading'
  subst reading'
  obtain ⟨self, made, content, allocates, wrapper, alive', enlarges, untouched⟩ :=
    allocateWrapper_untouched sound tidy bridges alive
  refine ⟨.raised (.takesNoArguments shape.name), made.release self, untouched,
    fun other callback declares => ?_⟩
  obtain ⟨allocator, handler⟩ := synthesized.handlers context
  refine run_instantiate_of_failed ?_ ?_
  · rw [allocate, allocator]
    exact allocates other declares
  · rw [runMaker, handler, maker]
    have some : (!positional.isEmpty ||
        decide (0 < (keywords.map made.heap.dictSize).getD 0)) = true := by
      rcases given with arguments | ⟨dict, rfl, more⟩
      · simp [arguments]
      · have same : made.heap.dictSize dict = world.heap.dictSize dict := by
          rw [Heap.dictSize, Heap.dict?, enlarges.bodies dict (keywordsUsed dict rfl)]
          rfl
        simp [same, more]
    dsimp only [Option.map_none]
    rw [Operation.run_bind_of_ok (run_heap made), if_pos some]
    rfl

end Program

/-! ## Rejected calls -/

/-- A call of an object is rejected: the slot that it comes to refuses the arguments, or there
are arguments for a bridged type that has no constructor. -/
inductive Program.Rejects (program : Program) (world : World) (callee : Ref)
    (positional : List Ref) (keywords : Option Ref) : Prop
  | function {definition : MethodDef} {owner : Owner} {registry : RegistryId} {slot : Slot}
      (body : world.heap.body callee = .function definition owner)
      (routes : world.Routes owner.object definition.entry registry slot)
      (alive : world.registryAlive registry = true)
      (refuses : program.Refuses world.heap registry slot positional keywords)
  | constructor {bridged : BridgedType} {id : Nat} {slot : Slot}
      (bridges : world.heap.bridgedType? callee = some bridged)
      (alive : world.registryAlive bridged.registry = true) (maker : bridged.maker = some id)
      (found : bridged.slots[id]? = some slot)
      (refuses : program.Refuses world.heap bridged.registry slot positional keywords)
  | bare {bridged : BridgedType} (bridges : world.heap.bridgedType? callee = some bridged)
      (alive : world.registryAlive bridged.registry = true) (maker : bridged.maker = none)
      (given : positional ≠ [] ∨ ∃ dict, keywords = some dict ∧ 0 < world.heap.dictSize dict)

/--
A call that is rejected changes nothing, neither in the course of a session nor in the middle
of another call.  Once the queue of deferred releases has been worked off, the call ends with a
fault and leaves every object with its contents and its count, every registry with its types and
its roster, and every interpreter as they were.  No host code has run: the call ends the same
way whatever the code of the program does.
-/
theorem Session.rejected_untouched (honest : program.Honest) {start world drained : World}
    {kept held : Multiset Ref} (session : Session program start kept)
    (path : Path program Permission.anything start kept world held) {callee : Ref}
    {positional : List Ref} {keywords : Option Ref}
    (used : ∀ ref ∈ positional, ref.place < world.heap.size)
    (dict : ∀ ref ∈ keywords, world.heap.isDict ref = true)
    (ended : Op.drainIfDue.run world = (.ok (), drained))
    (rejects : program.Rejects drained callee positional keywords) (depth : Nat) :
    ∃ fault after, drained.Untouched after ∧ ∀ other, program.Declares other →
      (other.callWithin (depth + 1) callee positional keywords).run world =
        (.error fault, after) := by
  have sound : world.Sound program held := path.sound (session.sound honest)
  have drain : Path program Permission.anything world 0 drained 0 := by
    have runs : Op.Runs program Permission.anything Op.drainIfDue world 0 (fun _ => 0)
        fun _ _ => True := Op.runs_drainIfDue
    have ran := runs held (by rwa [zero_add])
    rw [ended] at ran
    exact ran.1
  have sound' : drained.Sound program held := by
    have framed := (drain.frame held).sound (by rwa [zero_add])
    rwa [zero_add] at framed
  have tidy : drained.Tidy := drain.tidy (path.tidy (session.tidy honest))
  have later : ∀ ref : Ref, ref.place < world.heap.size → ref.place < drained.heap.size :=
    fun ref old => Nat.lt_of_lt_of_le old drain.grows.places
  have keywordsUsed : ∀ ref ∈ keywords, ref.place < drained.heap.size := by
    intro ref member
    refine later ref ?_
    have is := dict ref member
    cases present : world.heap.cell? ref with
    | some cell => exact Heap.place_lt_size present
    | none => simp [Heap.isDict, Heap.body, present] at is
  have used' : ∀ ref ∈ positional, ref.place < drained.heap.size :=
    fun ref member => later ref (used ref member)
  cases rejects with
  | function body routes alive refuses =>
    obtain ⟨fault, after, untouched, ran⟩ :=
      Program.rejected_function sound' tidy routes alive refuses used' keywordsUsed
    refine ⟨fault, after, untouched, fun other declares => ?_⟩
    rw [Program.run_callWithin dict ended, body]
    exact ran other _ declares
  | constructor bridges alive maker found refuses =>
    obtain ⟨shape, reading, _⟩ := sound'.wired.synthesized bridges
    obtain ⟨fault, after, untouched, ran⟩ := Program.rejected_constructor sound' tidy reading
      bridges alive maker found refuses used' keywordsUsed
    refine ⟨fault, after, untouched, fun other declares => ?_⟩
    rw [Program.run_callWithin dict ended, reading]
    exact ran other _ declares
  | bare bridges alive maker given =>
    obtain ⟨shape, reading, _⟩ := sound'.wired.synthesized bridges
    obtain ⟨fault, after, untouched, ran⟩ :=
      Program.rejected_bare sound' tidy reading bridges alive maker given keywordsUsed
    refine ⟨fault, after, untouched, fun other declares => ?_⟩
    rw [Program.run_callWithin dict ended, reading]
    exact ran other _ declares

open Figures in
set_option maxRecDepth 10000 in
/-- The constructor of points asks for two numbers. -/
theorem Session.rejected_untouched_point :
    ∃ fault after, (Request.played Figures.program opening).Untouched after ∧
      ∀ other, Figures.program.Declares other →
        (other.call ⟨5⟩ [.none, .none] none).run (Request.played Figures.program opening) =
          (.error fault, after) := by
  have facts : ((Request.played Figures.program opening).current,
      ((Request.played Figures.program opening).queue ⟨0⟩).isDue,
      (Request.played Figures.program opening).registryAlive ⟨0⟩,
      (Request.played Figures.program opening).heap.size,
      ((Request.played Figures.program opening).heap.bridgedType? ⟨5⟩).map fun bridged =>
        (bridged.registry, bridged.maker, (bridged.slots[0]?).map Slot.role),
      Decode.fresh Figures.program (Request.played Figures.program opening).heap ⟨0⟩ number .none) =
    (some ⟨0⟩, false, true, 7, some (⟨0⟩, some 0, some (.construct 0)),
      .error (.error (.mismatch "int" "NoneType"))) := by cbv
  simp only [Prod.mk.injEq, Option.map_eq_some_iff] at facts
  obtain ⟨current, idle, alive, size, ⟨bridged, bridges, registry, maker, slot, found, role⟩,
    refused⟩ := facts
  have params : Figures.program.slotParameters slot = [number, number] := by
    rw [Program.slotParameters, role]
    rfl
  rw [← registry] at alive refused
  refine Session.rejected_untouched Figures.honest playable_opening.session (.refl _ _) ?_ ?_ ?_
    (.constructor bridges alive maker found (.argument ?_)) 999
  · intro ref member
    rw [size]
    fin_cases member <;> decide
  · intro ref member
    cases member
  · refine Op.run_drainIfDue_of_idle fun id bound => ?_
    rw [current, Option.some.injEq] at bound
    rw [← bound]
    exact idle
  · rw [params]
    exact .here refused (by simp)

end HostBridge
