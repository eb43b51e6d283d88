import HostBridge.Proofs.Exporting.History
import HostBridge.Proofs.Sharing.Method
import HostBridge.Proofs.Wiring.Calls

/-!
# Objects that run host code when they are called

These are functions that were exported into a module or on their own, methods that were read from
a wrapper, and types with a constructor.  Such an object leads to its host code for as long as it
is there, whatever else happens.  A function of a module needs the module as well, which it does
not keep.
-/

namespace HostBridge

open Op

/-- Host code that can be called. -/
inductive Target where
  /-- A function. -/
  | function (code : Nat)
  /-- A method of a struct, on the value behind a wrapper. -/
  | method (self : Ref) (owner : StructId) (index : Nat)
  /-- A constructor of a struct. -/
  | constructor (code : Nat) (id : StructId)

namespace Target

variable (program : Program)

def parameters : Target → List HostType
  | .function code => (program.function code).parameters
  | .method _ owner index => (program.method owner index).parameters
  | .constructor code _ => (program.maker code).parameters

/-- The type of what a call comes to; that of a constructor comes to the new instance. -/
def result : Target → HostType
  | .function code => (program.function code).result
  | .method _ owner index => (program.method owner index).result
  | .constructor _ id => .struct id

def run : Target → Behaviour
  | .function code => (program.function code).run
  | .method _ owner index => (program.method owner index).run
  | .constructor code _ => (program.maker code).run

end Target

/-! ## How objects come to run host code -/

/--
An object that runs host code when it is called, and where it comes from.  The registry is the one
that arguments and results are converted with.  Since then anything may have happened.
-/
inductive Exposed (program : Program) (registry : RegistryId) (world : World)
    (held : Multiset Ref) (callee : Ref) : Target → Prop
  | registered {bridge : Bridge} {module : Ref} {item : Export} {name doc : String}
      {before after : World} {given : Multiset Ref} {slots : List Slot}
      (reached : before.Reached program given)
      (used : ∀ ref ∈ item.captured.references, ref.place < before.heap.size)
      (ran : (program.registerFunction bridge module item name doc).run before =
        (.ok callee, after))
      (table : after.heap.moduleState? module = some (.slotTable registry slots))
      (path : Path program Permission.anything after ({callee} + given) world held) :
    Exposed program registry world held callee (.function item.code)
  | created {bridge : Bridge} {item : Export} {name doc : String} {before after : World}
      {given : Multiset Ref} (reached : before.Reached program given)
      (used : ∀ ref ∈ item.captured.references, ref.place < before.heap.size)
      (ran : (program.createFunction bridge item name doc).run before = (.ok callee, after))
      (same : bridge.registry = registry)
      (path : Path program Permission.anything after ({callee} + given) world held) :
    Exposed program registry world held callee (.function item.code)
  | fetched {self : Ref} {name : String} {content : Held} {bridged : BridgedType} {index : Nat}
      {before after : World} {given : Multiset Ref} (reached : before.Reached program given)
      (wrapper : before.heap.wrapper? self = some (content, bridged))
      (same : bridged.registry = registry)
      (plain : program.fieldNamed? bridged.host name = none)
      (named : program.methodNamed? bridged.host name = some index)
      (ran : (program.getAttribute self name).run before = (.ok callee, after))
      (path : Path program Permission.anything after ({callee} + given) world held) :
    Exposed program registry world held callee (.method self bridged.host index)
  | constructor {bridged : BridgedType} {number code : Nat} {slot : Slot}
      (reached : world.Reached program held)
      (shape : world.heap.bridgedType? callee = some bridged)
      (same : bridged.registry = registry) (maker : bridged.maker = some number)
      (found : bridged.slots[number]? = some slot) (role : slot.role = .construct code) :
    Exposed program registry world held callee (.constructor code bridged.host)

/-- What makes an object run host code: where it leads to in a world. -/
inductive World.Offers (world : World) (registry : RegistryId) (callee : Ref) : Target → Prop
  | module {definition : MethodDef} {module : Ref} {number code : Nat} {slots : List Slot}
      {slot : Slot} {captured : HostValue}
      (body : world.heap.body callee = .function definition (.module module))
      (entry : definition.entry = .slot number)
      (state : world.heap.moduleState? module = some (.slotTable registry slots))
      (found : slots[number]? = some slot) (role : slot.role = .function code captured) :
    World.Offers world registry callee (.function code)
  | capsule {definition : MethodDef} {capsule : Ref} {slot : Slot} {code : Nat}
      {captured : HostValue}
      (body : world.heap.body callee = .function definition (.bound capsule))
      (entry : definition.entry = .adHoc)
      (context : world.heap.capsule? capsule = some (.adHoc registry slot))
      (role : slot.role = .function code captured) :
    World.Offers world registry callee (.function code)
  | method {definition : MethodDef} {self : Ref} {number index : Nat} {content : Held}
      {bridged : BridgedType} {slot : Slot}
      (body : world.heap.body callee = .function definition (.bound self))
      (entry : definition.entry = .slot number)
      (wrapper : world.heap.wrapper? self = some (content, bridged))
      (same : bridged.registry = registry) (found : bridged.slots[number]? = some slot)
      (role : slot.role = .method bridged.host index) :
    World.Offers world registry callee (.method self bridged.host index)
  | constructor {bridged : BridgedType} {number code : Nat} {slot : Slot}
      (shape : world.heap.bridgedType? callee = some bridged)
      (same : bridged.registry = registry) (maker : bridged.maker = some number)
      (found : bridged.slots[number]? = some slot) (role : slot.role = .construct code) :
    World.Offers world registry callee (.constructor code bridged.host)

variable {program : Program} {registry : RegistryId} {world after : World} {held left : Multiset Ref}
  {callee : Ref} {target : Target}

/-- An export on its own makes a capsule with the slot and a function that keeps the capsule.
What comes after that only publishes the function. -/
theorem Program.exists_capsule_of_createFunction (sound : world.Sound program held)
    {bridge : Bridge} {item : Export} {name doc : String}
    (used : ∀ ref ∈ item.captured.references, ref.place < world.heap.size)
    (ran : (program.createFunction bridge item name doc).run world = (.ok callee, after)) :
    ∃ middle capsule slot given, slot.role = .function item.code item.captured ∧
      middle.heap.body capsule = .capsule slot.exposed (.adHoc bridge.registry slot) ∧
      middle.heap.body callee = .function (program.definition .adHoc slot) (.bound capsule) ∧
      middle.Sound program given ∧
      Path program Permission.anything middle given after ({callee} + held) := by
  rw [createFunction, Operation.run_bind_of_ok (run_interpreter world _),
    Operation.run_bind_of_ok (run_heap world)] at ran
  dsimp only at ran
  generalize slotted : program.functionSlot 0 item name doc
    (world.heap.globalNames (world.interpreter bridge.interpreter).main) = slot at ran
  have role : slot.role = .function item.code item.captured := by
    rw [← slotted]
    rfl
  have framed : world.Sound program (0 + held) := by rwa [zero_add]
  have capsuling : Runs program Permission.nothing
      (create (.capsule slot.exposed (.adHoc bridge.registry slot))) world 0 (fun ref => {ref})
      fun ref after => after.heap.body ref = .capsule slot.exposed (.adHoc bridge.registry slot) := by
    refine runs_create_body trivial fun inner member => used inner ?_
    have inside : inner ∈ slot.references := member
    rwa [Slot.references, role] at inside
  rcases capsuled : (create (.capsule slot.exposed (.adHoc bridge.registry slot))).run world with
    ⟨fault | capsule, first⟩
  · cases capsuled
  obtain ⟨toFirst, holds⟩ := capsuling.ok framed capsuled
  have soundFirst := (toFirst.frame held).sound framed
  rw [Operation.run_bind_of_ok capsuled] at ran
  have binding : Runs program Permission.nothing
      (Op.createFunction (program.definition .adHoc slot) capsule) first 0 (fun ref => {ref})
      fun ref after => after.heap.body ref =
        .function (program.definition .adHoc slot) (.bound capsule) := by
    refine runs_create_body trivial fun inner member => ?_
    rw [List.mem_singleton.mp member]
    exact soundFirst.used_of_held (by simp)
  rcases bound : (Op.createFunction (program.definition .adHoc slot) capsule).run first with
    ⟨fault | function, second⟩
  · cases bound
  obtain ⟨toSecond, body⟩ := binding.ok (by rwa [zero_add]) bound
  have soundSecond := (toSecond.frame ({capsule} + held)).sound (by rwa [zero_add])
  have kept := toSecond.keeps_object (by rwa [zero_add]) holds (by simp) id
    (by simp : capsule ∈ {capsule} + held)
  rw [Operation.run_bind_of_ok (run_always_of_run bound _)] at ran
  have releasing : Path program Permission.anything second ({capsule} + ({function} + held))
      (second.release capsule) (0 + ({function} + held)) := (path_release second capsule).frame _
  rw [zero_add] at releasing
  have soundReleased := releasing.sound (by rwa [add_left_comm] at soundSecond)
  generalize (world.interpreter bridge.interpreter).main = main at ran
  have adding : Runs program Permission.anything
      (orPanic (addObject main slot.exposed function) (.functionNotPublished slot.exposed))
      (second.release capsule) 0 (fun _ => 0) fun _ _ => True :=
    runs_orPanic (runs_addObject (fun _ => trivial) (soundReleased.used_of_held (by simp)))
  rcases added : (orPanic (addObject main slot.exposed function)
    (.functionNotPublished slot.exposed)).run (second.release capsule) with ⟨fault | done, third⟩
  · rw [Operation.run_bind_of_error (run_undoing_of_error added _)] at ran
    cases ran
  · rw [Operation.run_bind_of_ok (run_undoing_of_ok added _)] at ran
    cases ran
    have publishing := (adding.ok (by rwa [zero_add]) added).1.frame ({callee} + held)
    rw [zero_add] at publishing
    exact ⟨second, capsule, slot, _, role, kept, body, by rwa [add_left_comm] at soundSecond,
      (releasing.trans publishing).trans (path_note _ _)⟩

/-- A bridged type that is there in the end is the same as before. -/
theorem Path.same_bridgedType (path : Path program Permission.anything world held after left)
    {type : Ref} {bridged : BridgedType} (shape : world.heap.bridgedType? type = some bridged)
    {later : Cell} (there : after.heap.cell? type = some later) :
    after.heap.bridgedType? type = some bridged := by
  obtain ⟨cell, contents, present, body, context⟩ := Heap.bridgedType?_eq_some.mp shape
  have persists := path.persists present there
  rw [body] at persists
  exact Heap.bridgedType?_eq_some.mpr ⟨later, contents, there, persists.type, context⟩

/-- A function of a module that is still there leads to the slot that it was given. -/
theorem Path.same_slot (path : Path program Permission.anything world held after left)
    {module : Ref}
    {slots : List Slot} (state : world.heap.moduleState? module = some (.slotTable registry slots))
    {number code : Nat} {slot : Slot} {captured : HostValue} (found : slots[number]? = some slot)
    (role : slot.role = .function code captured) {later : Cell}
    (there : after.heap.cell? module = some later) :
    ∃ slots' slot' captured',
      after.heap.moduleState? module = some (.slotTable registry slots') ∧
      slots'[number]? = some slot' ∧ slot'.role = .function code captured' := by
  rw [Heap.moduleState?] at state
  obtain ⟨contents, reading, table⟩ := Option.bind_eq_some_iff.mp state
  obtain ⟨cell, present, body⟩ := Heap.exists_cell_of_body (Heap.module?_eq_some reading) (by simp)
  have persists := path.persists present there
  rw [body] at persists
  obtain ⟨contents', same, continues⟩ := persists
  obtain ⟨_, state', slots', rfl, keeps⟩ := continues.2 _ table
  obtain ⟨slot', found', continues'⟩ := keeps number slot found
  obtain ⟨_, captured', role'⟩ := continues'.of_function role
  refine ⟨slots', slot', captured', ?_, found', role'⟩
  rw [Heap.moduleState?, Heap.module?, Heap.body_eq there, same]
  exact state'

namespace Exposed

/-- The world is one that a client comes to. -/
theorem reached (honest : program.Honest)
    (exposed : Exposed program registry world held callee target) :
    world.Reached program held := by
  cases exposed with
  | registered reached used ran _ path =>
    exact (reached.trans (reached.path_of_ok honest
      (Program.runs_registerFunction (fun _ => trivial) used) ran)).trans path
  | created reached used ran _ path =>
    exact (reached.trans (reached.path_of_ok honest
      (Program.runs_exportFunction (fun _ => trivial) used) ran)).trans path
  | fetched reached wrapper _ _ _ ran path =>
    obtain ⟨_, _, _, present, _, _⟩ := Heap.wrapper?_eq_some.mp wrapper
    exact (reached.trans (reached.path_of_ok honest
      (program.runs_getAttribute honest.confined (Heap.place_lt_size present)) ran)).trans path
  | constructor reached => exact reached

/-- What an object runs does not depend on what else happens, as long as it is there. -/
theorem later (exposed : Exposed program registry world held callee target)
    (path : Path program Permission.anything world held after left) {cell : Cell}
    (there : after.heap.cell? callee = some cell) :
    Exposed program registry after left callee target := by
  cases exposed with
  | registered reached used ran table front =>
    exact .registered reached used ran table (front.trans path)
  | created reached used ran same front => exact .created reached used ran same (front.trans path)
  | fetched reached wrapper same plain named ran front =>
    exact .fetched reached wrapper same plain named ran (front.trans path)
  | constructor reached shape same maker found role =>
    exact .constructor (reached.trans path) (path.same_bridgedType shape there) same maker found role

/-- An object leads to its host code if it is there, and if its module is in case it belongs to
one. -/
theorem offers (honest : program.Honest)
    (exposed : Exposed program registry world held callee target)
    {cell : Cell} (there : world.heap.cell? callee = some cell) :
    world.Offers registry callee target ∨ ∃ definition module,
      world.heap.body callee = .function definition (.module module) ∧
      world.heap.cell? module = none := by
  cases exposed with
  | @registered bridge module item name doc before after given slots reached used ran table path =>
    obtain ⟨contents, edit, slot, reading, edits, entered, _, number, role, _, body⟩ :=
      Program.edits_registerFunction (reached.counted honest) ran
    have same := (Heap.body_eq there).trans (path.same_function body there)
    cases gone : world.heap.cell? module with
    | none => exact .inr ⟨_, module, same, gone⟩
    | some later =>
      have found : slots[slot.id]? = some slot := by
        rw [Heap.moduleState?, edits.module? reading, Option.bind_some] at table
        rw [ModuleBody.slots, table] at entered
        dsimp only at entered
        rw [entered, number, List.getElem?_concat_length]
      obtain ⟨slots', slot', captured', state', found', role'⟩ :=
        path.same_slot table found role gone
      exact .inl (.module same rfl state' found' role')
  | created reached used ran same path =>
    obtain ⟨middle, capsule, slot, given, role, holds, body, sound, front⟩ :=
      Program.exists_capsule_of_createFunction (reached.sound honest) used ran
    obtain ⟨cell', present, capsuled⟩ := Heap.exists_cell_of_body holds (by simp)
    have whole := front.trans path
    obtain ⟨kept, found, persists⟩ :=
      whole.keeps_bound (by rwa [add_zero]) body present there
    rw [capsuled] at persists
    obtain ⟨slot', same', continues⟩ := persists
    obtain ⟨_, captured', role'⟩ := continues.of_function role
    refine .inl (.capsule ((Heap.body_eq there).trans (whole.same_function body there)) rfl ?_ role')
    rw [Heap.capsule?, Heap.body_eq found, same', same]
  | @fetched self name content bridged index before after given reached wrapper same plain named ran
      path =>
    have sound := reached.sound honest
    obtain ⟨slot, role, place, reading⟩ :=
      Program.run_getAttribute_method sound.wired wrapper plain named
    have made : (create (.function (program.definition (.slot slot.id) slot) (.bound self))).run
        before = (.ok callee, after) := reading.symm.trans ran
    obtain ⟨_, _, _, present, _, _⟩ := Heap.wrapper?_eq_some.mp wrapper
    have soundAfter := (reached.path_of_ok honest
      (program.runs_getAttribute honest.confined (Heap.place_lt_size present)) ran).sound sound
    generalize definition : program.definition (.slot slot.id) slot = shown at made
    have entry : shown.entry = .slot slot.id := by
      rw [← definition]
      rfl
    have more : before.Extends (before.create (.function shown (.bound self))).2 :=
      (World.Extends.retainAll before [self]).trans (.place _ _)
    have body : (before.create (.function shown (.bound self))).2.heap.body
        (before.create (.function shown (.bound self))).1 = .function shown (.bound self) :=
      Heap.body_eq (Heap.cell?_push_next _ _)
    rw [run_create] at made
    cases made
    obtain ⟨same', content', wrapper', _⟩ :=
      path.keeps_receiver (by rwa [add_zero]) body (more.wrapper? wrapper) there
    exact .inl (.method same' entry wrapper' same place role)
  | constructor reached shape same maker found role =>
    exact .inl (.constructor shape same maker found role)

end Exposed

end HostBridge
