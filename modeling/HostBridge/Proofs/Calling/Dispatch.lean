import HostBridge.Proofs.Calling.Commutes
import HostBridge.Proofs.Exporting.History

/-!
# Encoded arguments come to the host code that was exposed

Values are encoded, and their objects are passed to an object that runs host code.  Unless the
object is a function whose module is gone, the call comes to the host code that the object was made
for, with arguments that are like the values.
-/

namespace HostBridge

open Op

/-! ## Lists of types whose values come back -/

section

variable {registered plain wider : StructId → Prop}

mutual

/-- More structs may be said to show all that they hold. -/
theorem HostType.returns_mono (within : ∀ id, plain id → wider id) :
    ∀ type : HostType, type.Returns registered plain → type.Returns registered wider
  | .unit, returns | .bool, returns | .int _, returns | .float _, returns | .complex _, returns
  | .text, returns | .bytes, returns => returns
  | .object, returns | .keywords, returns | .sealed _, returns => returns
  | .struct id, returns => returns.imp_right (within id)
  | .seq element, returns => returns_mono within element returns
  | .boxed element, returns => returns_mono within element returns
  | .map _ key value, ⟨keyed, first, second⟩ =>
    ⟨keyed, returns_mono within key first, returns_mono within value second⟩
  | .optional element, ⟨solid, returns⟩ => ⟨solid, returns_mono within element returns⟩
  | .tuple types, returns => returnsAll_mono within types returns

theorem HostType.returnsAll_mono (within : ∀ id, plain id → wider id) :
    ∀ types : List HostType, ReturnsAll registered plain types → ReturnsAll registered wider types
  | [], _ => trivial
  | type :: types, ⟨first, rest⟩ =>
    ⟨returns_mono within type first, returnsAll_mono within types rest⟩

end

end

variable {program : Program} {registered : StructId → Prop}

/-- Types whose values come back one by one do so together. -/
theorem HostType.exists_returnsAll {types : List HostType}
    (convertible : ∀ type ∈ types, type.Convertible program registered) :
    ∃ plain, (∀ id, plain id → (program.struct id).Open registered plain) ∧
      ReturnsAll registered plain types := by
  induction types with
  | nil => exact ⟨fun _ => False, fun _ => False.elim, trivial⟩
  | cons type types ih =>
    obtain ⟨first, shown, returns⟩ := convertible type (by simp)
    obtain ⟨others, shown', rest⟩ := ih fun other member => convertible other (by simp [member])
    have left : ∀ id, first id → first id ∨ others id := fun _ => .inl
    have right : ∀ id, others id → first id ∨ others id := fun _ => .inr
    refine ⟨fun id => first id ∨ others id, ?_, returns_mono left type returns,
      returnsAll_mono right types rest⟩
    rintro id (one | other)
    · have decl := shown id one
      exact ⟨decl.exported, decl.names, fun field member =>
        returns_mono left _ (decl.returns field member)⟩
    · have decl := shown' id other
      exact ⟨decl.exported, decl.names, fun field member =>
        returns_mono right _ (decl.returns field member)⟩

variable {registry : RegistryId} {world called drained : World} {held frame : Multiset Ref}
  {callee : Ref} {values : List HostValue} {refs : List Ref} {keywords : Option Ref}
  {target : Target}

/-- Values of types whose values come back are encoded one after the other. -/
theorem Encode.makes_components_of_convertible {types : List HostType}
    (sound : world.Sound program held)
    (convertible : ∀ type ∈ types, type.Convertible program (world.registers registry))
    (fit : HostValue.fitsAll program types values = true) (regular : HostValue.RegularAll values)
    (used : ∀ ref ∈ HostValue.referencesAll values, ref.place < world.heap.size) :
    Makes program Permission.anything (Encode.components program registry types [] values) world []
      id fun refs after => DenotesAll program after.heap registry (world.registers registry)
        after.heap.size types values refs := by
  obtain ⟨plain, shown, returns⟩ := HostType.exists_returnsAll convertible
  exact (Encode.makes_components values [] ⟨sound, fun _ => Iff.rfl, shown⟩ fit regular used
    returns).makes

/-! ## Objects that may have gone away -/

theorem Heap.isDict_eq_true {heap : Heap} {ref : Ref} :
    heap.isDict ref = true ↔ ∃ table, heap.body ref = .dict table := by
  unfold Heap.isDict
  cases heap.body ref <;> simp

/-- A function whose module is gone. -/
def Heap.Orphaned (heap : Heap) (callee : Ref) : Prop :=
  ∃ definition module, heap.body callee = .function definition (.module module) ∧
    heap.cell? module = none

/-- What leads to a slot is not a function whose module is gone. -/
theorem World.Offers.not_orphaned (offers : world.Offers registry callee target) :
    ¬world.heap.Orphaned callee := by
  rintro ⟨definition, module, body, gone⟩
  cases offers with
  | module body' _ state =>
    rw [body, Body.function.injEq, Owner.module.injEq] at body'
    obtain ⟨_, rfl⟩ := body'
    rw [Heap.moduleState?, Heap.module?, Heap.body, gone] at state
    cases state
  | capsule body' =>
    rw [body] at body'
    cases body'
  | method body' =>
    rw [body] at body'
    cases body'
  | constructor shape =>
    obtain ⟨cell, _, present, reading, _⟩ := Heap.bridgedType?_eq_some.mp shape
    rw [Heap.body_eq present, reading] at body
    cases body

/-- A call commutes with the host whatever it is that leads to the host code. -/
theorem Target.Ready.commutes (honest : program.Honest)
    (ready : target.Ready program registry called drained frame callee values refs keywords)
    (offers : drained.Offers registry callee target) :
    target.Commutes program registry called drained callee values refs keywords := by
  cases offers with
  | module body entry state found role =>
    exact ready.commutes_function honest body (by rw [entry]; exact .module state found) role
  | capsule body entry context role =>
    exact ready.commutes_function honest body (by rw [entry]; exact .adHoc context) role
  | method body entry wrapper same found role =>
    subst same
    exact ready.commutes_method honest body entry wrapper found role
  | constructor shape same maker found role =>
    subst same
    exact ready.commutes_constructor honest shape maker found role

/-! ## Calls with encoded arguments -/

/--
Dispatch commutes with the host.  An object was made to run host code: by exporting a function into
a module or on its own, by reading a method from a wrapper, or as a registered type with a
constructor.  Values of the declared types are encoded one after the other, and later, when no
object has changed but modules, the object is called with them.  If the queue of deferred releases
can be worked off, then the call commutes with the host, unless the object is a function whose
module is gone; in that case the call raises, and no host code runs.
-/
theorem Exposed.dispatch_commutes (honest : program.Honest)
    (exposed : Exposed program registry world ({callee} + held) callee target) {cell : Cell}
    (there : world.heap.cell? callee = some cell)
    (fit : HostValue.fitsAll program (Program.splitKeywords (target.parameters program)).1 values =
      true)
    (regular : HostValue.RegularAll values)
    (used : ∀ ref ∈ HostValue.referencesAll values, ref.place < world.heap.size)
    (convertible : ∀ type ∈ (Program.splitKeywords (target.parameters program)).1,
      type.Convertible program (world.registers registry)) :
    ∃ refs encoded,
      (Encode.components program registry (Program.splitKeywords (target.parameters program)).1 []
        values).run world = (.ok refs, encoded) ∧
      ∀ called left keywords drained, Path program Permission.modular encoded held called left →
        keywords.isSome = (Program.splitKeywords (target.parameters program)).2 →
        (∀ ref ∈ keywords, ref ∈ left ∧ called.heap.isDict ref = true) →
        called.registryAlive registry = true → drainIfDue.run called = (.ok (), drained) →
        (¬drained.heap.Orphaned callee ∧
          target.Commutes program registry called drained callee values refs keywords) ∨
        (drained.heap.Orphaned callee ∧ (program.call callee refs keywords).run called =
          (.error (.raised .moduleReleased), drained)) := by
  have reached := exposed.reached honest
  have sound := reached.sound honest
  obtain ⟨refs, encoded, ran, made, denotes⟩ :=
    Encode.makes_components_of_convertible sound convertible fit regular used
  refine ⟨refs, encoded, ran, fun called left keywords drained path collects dicts alive ended => ?_⟩
  -- The client holds what is called and what has been encoded until the call has ended.
  have encoding : Path program Permission.anything world ({callee} + held) encoded
      (held + ({callee} + refs)) := by
    have path : Path program Permission.anything world ({callee} + held) encoded
        ({callee} + held + refs) := made.path_new _
    rwa [add_assoc, add_left_comm] at path
  have waiting := path.frame ({callee} + (refs : Multiset Ref))
  have soundEncoded := encoding.sound sound
  have soundCalled := waiting.sound soundEncoded
  have framed : called.Sound program (0 + (left + ({callee} + refs))) := by rwa [zero_add]
  have drain := path_of_drained framed ended
  have drains := drain.frame (left + ({callee} + (refs : Multiset Ref)))
  have soundDrained := drains.sound framed
  rw [zero_add] at drains soundDrained
  have whole := (encoding.trans (waiting.mono Permission.modular.within_anything)).trans
    (drains.mono Permission.nothing.within_anything)
  obtain ⟨middle, encodedThere, _⟩ := made.more.objects callee trivial cell there
  obtain ⟨later, calledThere⟩ := path.keeps_cell soundEncoded encodedThere (by simp)
  obtain ⟨last, drainedThere⟩ := drain.keeps_cell framed calledThere (by simp)
  rcases (exposed.later whole drainedThere).offers honest drainedThere with offers | gone
  · have passed : ∀ ref ∈ refs, ref ∈ left + ({callee} + (refs : Multiset Ref)) :=
      fun ref member => by simp [member]
    have each := (denotes.kept path soundEncoded (fun _ => Permission.not_lasting_of_modular)
      fun ref member => by simp [member]).kept drain framed (fun _ => False.elim) passed
    have ready : target.Ready program registry called drained (left + ({callee} + refs)) callee
        values refs keywords := by
      refine ⟨soundDrained, by simp, ended, ?_, ⟨_, _, each⟩, regular, collects, passed,
        fun ref member => (dicts ref member).2, fun ref member => ⟨by simp [dicts ref member], ?_⟩⟩
      · rw [registryAlive_drainIfDue ended, alive]
      · obtain ⟨owned, isDict⟩ := dicts ref member
        obtain ⟨table, reading⟩ := Heap.isDict_eq_true.mp isDict
        exact Heap.isDict_eq_true.mpr
          ⟨table, drain.keeps_object framed reading (by simp) id (by simp [owned])⟩
    exact .inl ⟨offers.not_orphaned, ready.commutes honest offers⟩
  · obtain ⟨definition, module, body, missing⟩ := gone
    exact .inr ⟨⟨definition, module, body, missing⟩,
      Program.run_call_of_gone (fun ref member => (dicts ref member).2) ended body missing⟩

namespace Figures

/-- Two numbers, as objects, after the constructor of points has been exported. -/
def paired : World :=
  ((Encode.components Figures.program ⟨0⟩ [number, number] [] [.int 3, .int 4]).run
    (Request.played Figures.program opening)).2

end Figures

open Figures in
set_option maxRecDepth 10000 in
/-- A point is made from two numbers. -/
theorem Exposed.dispatch_commutes_point :
    ∃ refs, (Encode.components Figures.program ⟨0⟩ [number, number] [] [.int 3, .int 4]).run
        (Request.played Figures.program opening) = (.ok refs, paired) ∧
      (Target.constructor 0 ⟨0⟩).Commutes Figures.program ⟨0⟩ paired paired ⟨5⟩ [.int 3, .int 4]
        refs none := by
  have facts : ((Request.played Figures.program opening).heap.holds ⟨5⟩,
      Request.kept Figures.program opening, paired.current, (paired.queue ⟨0⟩).isDue,
      paired.registryAlive ⟨0⟩, paired.heap.isType ⟨5⟩,
      ((Request.played Figures.program opening).heap.bridgedType? ⟨5⟩).map fun bridged =>
        (bridged.registry, bridged.host, bridged.maker, (bridged.slots[0]?).map Slot.role)) =
      (true, (([⟨6⟩, ⟨5⟩, ⟨4⟩] : List Ref) : Multiset Ref), some ⟨0⟩, false, true, true,
        some (⟨0⟩, ⟨0⟩, some 0, some (.construct 0))) := by
    cbv
  simp only [Prod.mk.injEq, Option.map_eq_some_iff] at facts
  obtain ⟨there, kept, current, idle, alive, type, bridged, shape, registry, host, maker, slot, found,
    role⟩ := facts
  obtain ⟨cell, present⟩ := Option.isSome_iff_exists.mp there
  have reached : (Request.played Figures.program opening).Reached Figures.program
      ({⟨5⟩} + ([⟨6⟩, ⟨4⟩] : List Ref)) := by
    have held : Request.kept Figures.program opening = {⟨5⟩} + ([⟨6⟩, ⟨4⟩] : List Ref) := by
      rw [kept]
      decide
    rw [← held]
    exact ⟨_, _, playable_opening.session, .refl _ _⟩
  have exposed : Exposed Figures.program ⟨0⟩ (Request.played Figures.program opening)
      ({⟨5⟩} + ([⟨6⟩, ⟨4⟩] : List Ref)) ⟨5⟩ (.constructor 0 ⟨0⟩) := by
    rw [← host]
    exact .constructor reached shape registry maker found role
  have numbers : ∀ type ∈ [number, number], type.Convertible Figures.program
      ((Request.played Figures.program opening).registers ⟨0⟩) := by
    intro type member
    obtain rfl : type = number := by simpa using member
    exact ⟨fun _ => False, fun _ => False.elim, trivial⟩
  have fit : HostValue.fitsAll Figures.program [number, number] [.int 3, .int 4] = true := rfl
  have used : ∀ ref ∈ ([] : List Ref),
      ref.place < (Request.played Figures.program opening).heap.size := by simp
  obtain ⟨refs, encoded, ran, calls⟩ := exposed.dispatch_commutes Figures.honest present fit
    ⟨trivial, trivial, trivial⟩ used numbers
  obtain rfl : paired = encoded := congrArg Prod.snd ran
  refine ⟨refs, ran, ?_⟩
  have ended : drainIfDue.run paired = (.ok (), paired) := by
    refine run_drainIfDue_of_idle fun id bound => ?_
    rw [current, Option.some.injEq] at bound
    rw [← bound]
    exact idle
  rcases calls paired _ none paired (.refl _ _) rfl (by simp) alive ended with ⟨_, commutes⟩ |
    ⟨⟨definition, module, body, gone⟩, _⟩
  · exact commutes
  · rw [Heap.isType, body] at type
    cases type

end HostBridge
