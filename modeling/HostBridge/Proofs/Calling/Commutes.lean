import HostBridge.Proofs.Calling.Conclusion

/-!
# Calls commute with the host

A call of an object that runs host code is a call of that code: the arguments are decoded, the code
runs once, and what it leaves and returns is encoded.  Nothing else changes an object on the way.
So host code that is called through the interpreter, with the objects of its arguments, does what
it does when it is called directly.
-/

namespace HostBridge

open Op

namespace Target

variable (program : Program)

/-- What host code works on: the state that a function has captured, what is behind the wrapper of
a method, and for a constructor the zero value in an instance that has just been made. -/
inductive WorksOn (registry : RegistryId) (callee : Ref) (drained start : World) (self : Ref)
    (number : Nat) (subject : HostValue) : Target → Prop
  | function {code : Nat} {definition : MethodDef} {owner : Owner} {slot : Slot}
      (body : start.heap.body callee = .function definition owner) (object : self = owner.object)
      (routes : start.Routes self definition.entry registry slot) (place : number = slot.id)
      (role : slot.role = .function code subject) :
    WorksOn registry callee drained start self number subject (.function code)
  | method {owner : StructId} {index : Nat} (behind : start.behind? self = some subject) :
    WorksOn registry callee drained start self number subject (.method self owner index)
  | constructor {code : Nat} {id : StructId} {fresh : HostValue}
      (unused : drained.heap.size ≤ self.place) (behind : start.behind? self = some fresh)
      (zero : fresh = copied (program.zero (.struct id)) drained)
      (works : subject = (program.maker code).initial fresh) :
    WorksOn registry callee drained start self number subject (.constructor code id)

/--
A call from a world in which the queue has been worked off commutes with the host: the host code is
run from a world with the same objects, on arguments that are like the values that were encoded.
If it returns, then the call ends with what is made of its result and what it has left, for which
no more host code is run.
-/
def Commutes (registry : RegistryId) (called drained : World) (callee : Ref)
    (values : List HostValue) (refs : List Ref) (keywords : Option Ref) (target : Target) : Prop :=
  ∃ self number subject arguments start,
    World.Leads program Permission.nothing drained start ∧
    Passed values drained start keywords arguments ∧
    target.WorksOn program registry callee drained start self number subject ∧
    ∀ left result more middle,
      (runRoutine (program.callbackAt 999) [] (target.run program start.heap subject arguments)).run
        start = (.ok (⟨left, .ok result⟩, more), middle) →
      target.Answers program registry middle result →
      ∃ ref final, (program.call callee refs keywords).run called = (.ok ref, final) ∧
        (target.conclude program registry self number subject more
          (HostValue.referencesAll arguments) left result).run middle = (.ok ref, final) ∧
        target.Concluded program registry self left result middle final ref

/-- A call can be made: the queue has been worked off, and the objects that are passed stand for
values of the declared types. -/
structure Ready (registry : RegistryId) (called drained : World) (frame : Multiset Ref)
    (callee : Ref) (values : List HostValue) (refs : List Ref) (keywords : Option Ref)
    (target : Target) : Prop where
  sound : drained.Sound program frame
  held : callee ∈ frame
  ended : drainIfDue.run called = (.ok (), drained)
  alive : drained.registryAlive registry = true
  each : ∃ registered bound, DenotesAll program drained.heap registry registered bound
    (Program.splitKeywords (target.parameters program)).1 values refs
  regular : HostValue.RegularAll values
  collects : keywords.isSome = (Program.splitKeywords (target.parameters program)).2
  passed : ∀ ref ∈ refs, ref ∈ frame
  dict : ∀ ref ∈ keywords, called.heap.isDict ref = true
  same : ∀ ref ∈ keywords, ref ∈ frame ∧ drained.heap.isDict ref = true

end Target

variable {program : Program} {registry : RegistryId} {called drained : World}
  {frame : Multiset Ref} {callee : Ref} {values : List HostValue} {refs : List Ref}
  {keywords : Option Ref} {target : Target}

namespace World.Makes

variable {touch : Permission} {world : World} {ref : Ref}

/-- A reference is taken. -/
theorem retain (used : ref.place < world.heap.size) :
    World.Makes program touch world [] (world.retain ref) [ref] :=
  retainAll fun inner member => by rwa [List.mem_singleton.mp member]

/-- A reference is taken, and a log record is written. -/
theorem retain_note (used : ref.place < world.heap.size) (level : Level) (text : String) :
    World.Makes program touch world [] ((world.retain ref).note level text) [ref] :=
  (retain used).trans ⟨fun _ => path_note level text, .note _ level text⟩

end World.Makes

/-- A reference to a module that is gone is not taken. -/
theorem Op.run_functionOwner_of_gone {module : Ref} (gone : drained.heap.cell? module = none) :
    (functionOwner (.module module)).run drained = (.error (.raised .moduleReleased), drained) := by
  have absent : ¬drained.heap.holds module = true := by
    rw [Heap.holds, gone]
    exact Bool.false_ne_true
  rw [functionOwner, Operation.run_bind_of_ok (run_heap drained), if_neg absent]
  rfl

/-- A function whose module is gone cannot be called. -/
theorem Program.run_call_of_gone (dict : ∀ ref ∈ keywords, called.heap.isDict ref = true)
    (ended : drainIfDue.run called = (.ok (), drained)) {definition : MethodDef} {module : Ref}
    (body : drained.heap.body callee = .function definition (.module module))
    (gone : drained.heap.cell? module = none) :
    (program.call callee refs keywords).run called =
      (.error (.raised .moduleReleased), drained) := by
  rw [call, callDepth, run_callWithin dict ended, body]
  exact Operation.run_bind_of_error (run_functionOwner_of_gone gone) _

/-- A new instance is an object that has not been there before. -/
theorem Program.unused_allocateWrapper (founded : program.Founded)
    (sound : drained.Sound program frame)
    {bridged : BridgedType} (shape : drained.heap.bridgedType? callee = some bridged)
    (alive : drained.registryAlive bridged.registry = true) {self : Ref} {made : World}
    (allocated : (program.allocateWrapper callee).run drained = (.ok self, made)) :
    drained.heap.size ≤ self.place := by
  have zero := program.valid_zero founded sound.grounded.large (.struct bridged.host)
  have adopting : World.Makes program Permission.nothing drained [] _ _ :=
    (World.Makes.retainAll zero.used).trans (HostValue.makes_completed _ _)
  have larger := (adopting.path 0).grows.places
  rw [allocateWrapper, Operation.run_bind_of_ok (run_heap drained), shape] at allocated
  dsimp only at allocated
  rw [Operation.run_bind_of_ok (run_liveRegistry alive), wrapCopy,
    Operation.run_bind_of_ok (run_adopt _ drained), run_wrap] at allocated
  cases allocated
  refine larger.trans (Nat.le_of_eq ?_)
  exact (Heap.size_retain _ callee).symm

/-- What a slot that something leads to has captured has places. -/
theorem World.Routes.used_references (sound : drained.Sound program frame) {self : Ref}
    {entry : Entry} {slot : Slot} (routes : drained.Routes self entry registry slot) :
    ∀ ref ∈ slot.references, ref.place < drained.heap.size := by
  cases routes with
  | method wrapper found => exact (Program.suits_wrapper sound wrapper found).captured
  | module state found =>
    exact fun ref => Program.used_of_slotTable sound state (List.mem_of_getElem? found)
  | adHoc context =>
    intro ref member
    obtain ⟨name, reading⟩ := Heap.exists_capsule context
    refine sound.used_of_body self ?_
    rw [reading]
    exact member

/-- An entry point that leads to the slot of a function runs this function. -/
theorem Program.run_runEntry_function (sound : drained.Sound program frame) {self : Ref}
    {entry : Entry} {slot : Slot} {code : Nat} {captured : HostValue}
    (routes : drained.Routes self entry registry slot) (role : slot.role = .function code captured)
    (alive : drained.registryAlive registry = true) :
    ∃ noted, World.Makes program Permission.nothing drained [self] noted [self] ∧
      ∀ callback read, program.arguments noted.heap registry slot refs keywords = .ok read →
        (program.runEntry callback entry self refs keywords).run drained =
          (program.applyFunction callback registry (.holder self) slot.id code captured read).run
            noted := by
  cases routes with
  | method wrapper found =>
    have concerns := concerns_of_slot sound wrapper found
    rw [role] at concerns
    exact concerns.elim
  | @module number registry slots slot state found =>
    refine ⟨drained.note .trace s!"dispatch slot {number} ({slot.exposed})",
      ⟨fun held => path_note _ _, .note _ _ _⟩, ?_⟩
    intro callback read accepted
    exact run_runEntry_module state alive found role accepted
  | adHoc context =>
    refine ⟨drained, .refl drained [self], ?_⟩
    intro callback read accepted
    exact run_runEntry_adHoc context alive role accepted

namespace Target.Ready

/-- What is called is run on arguments that are like the values that were encoded. -/
theorem enters (founded : program.Founded)
    (ready : target.Ready program registry called drained frame callee values refs keywords)
    {slot : Slot} (parameters : program.slotParameters slot = target.parameters program)
    {noted : World} {self : Ref}
    (makes : World.Makes program Permission.nothing drained [] noted [self]) :
    ∃ read arguments start,
      program.arguments noted.heap registry slot refs keywords = .ok read ∧
      (adoptAll read).run noted = (.ok arguments, start) ∧
      HostValue.fitsAll program (target.parameters program) arguments = true ∧
      noted.Extends start ∧ World.Leads program Permission.nothing drained start ∧
      start.Sound program (HostValue.referencesAll arguments + ({self} + frame)) ∧
      Passed values drained start keywords arguments := by
  obtain ⟨registered, bound, each⟩ := ready.each
  have collects := ready.collects
  rw [← parameters] at each collects ⊢
  exact each.entered founded ready.sound makes collects ready.regular
    (fun ref member => ready.sound.used_of_held (ready.passed ref member))
    (fun ref member => ready.sound.used_of_held (ready.same ref member).1)
    fun ref member => (ready.same ref member).2

/-- A function that leads to the slot of a host function runs this function. -/
theorem commutes_function (honest : program.Honest) {code : Nat}
    (ready : (function code).Ready program registry called drained frame callee values refs keywords)
    {definition : MethodDef} {owner : Owner} {slot : Slot} {captured : HostValue}
    (body : drained.heap.body callee = .function definition owner)
    (routes : drained.Routes owner.object definition.entry registry slot)
    (role : slot.role = .function code captured) :
    (function code).Commutes program registry called drained callee values refs keywords := by
  obtain ⟨cell, present⟩ := routes.present
  have parameters : program.slotParameters slot = (function code).parameters program := by
    rw [Program.slotParameters, role]
    rfl
  have taken : World.Makes program Permission.nothing drained [] (drained.retain owner.object)
      [owner.object] := .retain (Heap.place_lt_size present)
  have soundTaken := (taken.path_new frame).sound ready.sound
  obtain ⟨noted, noting, enters⟩ := Program.run_runEntry_function soundTaken
    (routes.mono taken.more) role ready.alive
  obtain ⟨read, arguments, start, accepted, adopting, fit, entered, leads, sound, passed⟩ :=
    ready.enters honest.founded parameters (taken.trans noting)
  have more := (taken.trans noting).more.trans entered
  have used : ∀ ref ∈ captured.references, ref.place < start.heap.size := by
    have places := (routes.mono more).used_references sound
    rwa [Slot.references, role] at places
  refine ⟨owner.object, slot.id, captured, arguments, start, leads, passed,
    .function (more.body body (by simp)) rfl (routes.mono more) rfl role, ?_⟩
  intro left result more middle routine answers
  obtain ⟨ref, final, ran, concluded, ends⟩ :=
    concluded_function honest sound used fit adopting routine answers
  refine ⟨ref, final, ?_, concluded, ends⟩
  rw [Program.call, Program.callDepth, Program.run_callWithin ready.dict ready.ended, body]
  dsimp only
  rw [Operation.run_bind_of_ok (Program.run_functionOwner present), run_always,
    enters _ read accepted]
  exact ran

/-- A function that leads to the slot of a method runs this method on its wrapper. -/
theorem commutes_method (honest : program.Honest) {definition : MethodDef} {self : Ref}
    {content : Held} {bridged : BridgedType} {slot : Slot} {number index : Nat}
    (ready : (method self bridged.host index).Ready program bridged.registry called drained frame
      callee values refs keywords)
    (body : drained.heap.body callee = .function definition (.bound self))
    (entry : definition.entry = .slot number)
    (wrapper : drained.heap.wrapper? self = some (content, bridged))
    (found : bridged.slots[number]? = some slot) (role : slot.role = .method bridged.host index) :
    (method self bridged.host index).Commutes program bridged.registry called drained callee values
      refs keywords := by
  obtain ⟨receiver, wrapped, _⟩ := ready.sound.wired.exists_wrapped? wrapper
  obtain ⟨cell, _, _, present, _, _⟩ := Heap.wrapper?_eq_some.mp wrapper
  have parameters : program.slotParameters slot =
      (method self bridged.host index).parameters program := by
    rw [Program.slotParameters, role]
    rfl
  have makes : World.Makes program Permission.nothing drained []
      ((drained.retain self).note .trace s!"dispatch slot {number} ({slot.exposed})") [self] :=
    .retain_note (Heap.place_lt_size present) _ _
  obtain ⟨read, arguments, start, accepted, adopting, fit, entered, leads, sound, passed⟩ :=
    ready.enters honest.founded parameters makes
  have more := makes.more.trans entered
  refine ⟨self, number, receiver, arguments, start, leads, passed,
    .method (World.behind?_of_wrapped? (more.wrapped? wrapped)), ?_⟩
  intro left result held middle routine answers
  obtain ⟨ref, final, ran, concluded, ends⟩ :=
    concluded_method honest sound ready.held (more.body body (by simp)) (more.wrapper? wrapper)
      (more.wrapped? wrapped) fit adopting routine answers
  refine ⟨ref, final, ?_, concluded, ends⟩
  have retained := (World.Extends.retain drained self).wrapped? wrapped
  rw [Program.run_call_bound ready.dict ready.ended body, run_always, entry,
    Program.run_runEntry_method retained ready.alive found role accepted]
  exact ran

/-- A type with a constructor makes an instance and runs the constructor on it. -/
theorem commutes_constructor (honest : program.Honest) {bridged : BridgedType} {slot : Slot}
    {number code : Nat}
    (ready : (constructor code bridged.host).Ready program bridged.registry called drained frame
      callee values refs keywords)
    (shape : drained.heap.bridgedType? callee = some bridged)
    (maker : bridged.maker = some number) (found : bridged.slots[number]? = some slot)
    (role : slot.role = .construct code) :
    (constructor code bridged.host).Commutes program bridged.registry called drained callee values
      refs keywords := by
  obtain ⟨type, reading, context, synthesized⟩ := ready.sound.wired.synthesized shape
  obtain ⟨allocator, handler⟩ := synthesized.handlers context
  obtain ⟨self, made, allocated, makes, wrapper, alive⟩ :=
    Program.makes_allocateWrapper honest.founded ready.sound shape ready.alive
  have unused := Program.unused_allocateWrapper honest.founded ready.sound shape ready.alive allocated
  have parameters : program.slotParameters slot =
      (constructor code bridged.host).parameters program := by
    rw [Program.slotParameters, role]
    rfl
  obtain ⟨read, arguments, start, accepted, adopting, fit, more, leads, sound, passed⟩ :=
    ready.enters honest.founded parameters makes
  have concerns := synthesized.sound context slot (List.mem_of_getElem? found)
  rw [role] at concerns
  obtain ⟨subject, proper⟩ := concerns
  generalize zero : copied (program.zero (.struct bridged.host)) drained = fresh at wrapper
  have wrapped : made.heap.wrapped? self = some (fresh, bridged) :=
    Heap.wrapped?_eq_some.mpr ⟨_, _, wrapper, Heap.ownedValue?_of_wrapper? wrapper, rfl⟩
  refine ⟨self, number, (program.maker code).initial fresh, arguments, start, leads, passed,
    .constructor unused (World.behind?_of_wrapped? (more.wrapped? wrapped)) zero.symm rfl, ?_⟩
  intro left result held middle routine answers
  obtain ⟨final, ran, concluded, ends⟩ :=
    concluded_constructor honest sound (more.wrapper? wrapper) (more.wrapped? wrapped) rfl subject
      proper fit adopting routine
  refine ⟨self, final, ?_, concluded, ends⟩
  have maker' : type.maker = some .bridge := by
    rw [handler, maker]
    rfl
  rw [Program.call, Program.callDepth, Program.run_callWithin ready.dict ready.ended, reading]
  dsimp only
  rw [Program.run_instantiate allocator maker' allocated]
  have constructing : (program.construct (program.callbackAt 999) self refs keywords).run made =
      (Program.fill (program.callbackAt 999) (program.maker code) self fresh read).run made :=
    Program.run_construct wrapper wrapped alive maker found role accepted
  rw [Operation.run_bind, undoing, run_ofFunction] at ran ⊢
  rw [constructing]
  exact ran

end Target.Ready

end HostBridge
