import HostBridge.Proofs.Session.Reachable
import HostBridge.Proofs.Sharing.Method

/-!
# Chains of wrappers

A wrapper that owns its value denotes that value.  A wrapper that has been read
from another one, through a field that is declared with a registered struct,
denotes the field of the value that the other one denotes.  This goes on for as
long as the wrapper is there, whatever is asked for in the meantime and whoever
else lets go of the wrappers in between.
-/

namespace HostBridge

open Op

variable {program : Program} {world : World} {held : Multiset Ref}

/-! ## What a wrapper denotes -/

/-- A wrapper shows a part of the value of a root that is alive, at a path. -/
def World.Denotes (world : World) (ref root : Ref) (path : List Nat) (part : HostValue) : Prop :=
  ∃ content bridged value, world.heap.wrapper? ref = some (content, bridged) ∧
    Heap.location ref content = (root, path) ∧
    world.heap.ownedValue? root = some value ∧ value.at? path = some part ∧
    world.heap.wrapped? ref = some (part, bridged)

theorem World.Wired.denotes (wired : world.Wired program) {ref : Ref} {content : Held}
    {bridged : BridgedType} (wrapper : world.heap.wrapper? ref = some (content, bridged)) :
    ∃ part, world.Denotes ref (Heap.location ref content).1 (Heap.location ref content).2 part := by
  obtain ⟨part, wrapped, _⟩ := wired.exists_wrapped? wrapper
  obtain ⟨content', value, wrapper', owned, present⟩ := Heap.wrapped?_eq_some.mp wrapped
  rw [wrapper, Option.some.injEq, Prod.mk.injEq] at wrapper'
  obtain ⟨rfl, _⟩ := wrapper'
  exact ⟨part, content, bridged, value, wrapper, rfl, owned, present, wrapped⟩

/-- A wrapper that owns its value denotes the whole of it. -/
theorem World.Wired.denotes_root (wired : world.Wired program) {root : Ref} {value : HostValue}
    (owned : world.heap.ownedValue? root = some value) : world.Denotes root root [] value := by
  obtain ⟨cell, type, registry, present, body⟩ := Heap.ownedValue?_eq_some.mp owned
  obtain ⟨⟨bridged, shape, _⟩, _⟩ :=
    wired.wrapper root type registry _ ((Heap.body_eq present).trans body)
  have wrapper : world.heap.wrapper? root = some (.owned value, bridged) :=
    Heap.wrapper?_eq_some.mpr ⟨cell, type, registry, present, body, shape⟩
  exact ⟨.owned value, bridged, value, wrapper, rfl, owned, rfl,
    Heap.wrapped?_eq_some.mpr ⟨.owned value, value, wrapper, owned, rfl⟩⟩

/-- A wrapper that is still there in the end is one of its type, and at its place. -/
theorem World.Leads.wrapper_of_present {touch : Permission} {first second : World}
    (leads : World.Leads program touch first second) (wired : second.Wired program) {ref : Ref}
    {content : Held} {bridged : BridgedType} {later : Cell}
    (wrapper : first.heap.wrapper? ref = some (content, bridged))
    (found : second.heap.cell? ref = some later) :
    ∃ content', second.heap.wrapper? ref = some (content', bridged) ∧
      Heap.location ref content' = Heap.location ref content := by
  obtain ⟨cell, type, registry, present, body, _⟩ := Heap.wrapper?_eq_some.mp wrapper
  obtain ⟨_, _, path⟩ := leads
  have persists := path.persists present found
  rw [body] at persists
  obtain ⟨content', same, _⟩ := persists
  obtain ⟨⟨bridged', shape, _⟩, _⟩ :=
    wired.wrapper ref type registry content' ((Heap.body_eq found).trans same)
  have wrapper' : second.heap.wrapper? ref = some (content', bridged') :=
    Heap.wrapper?_eq_some.mpr ⟨later, type, registry, found, same, shape⟩
  obtain ⟨rfl, location⟩ := path.same_wrapper wrapper wrapper'
  exact ⟨content', wrapper', location⟩

namespace Program

/-! ## Reading nested structs -/

/-- A field that is declared with a registered struct is read as an alias. -/
theorem readField_alias (sound : world.Sound program held) {self : Ref} {id : Nat} {slot : Slot}
    {content : Held} {bridged : BridgedType} {index : Nat} {nested : StructId} {handle : Ref}
    (wrapper : world.heap.wrapper? self = some (content, bridged))
    (found : bridged.slots[id]? = some slot) (role : slot.role = .get bridged.host index)
    (declared : (program.field bridged.host index).type = .struct nested)
    (registered : (world.registry bridged.registry).handle? nested = some handle)
    {inner : Ref} {after : World}
    (ran : (program.readField self id).run world = (.ok inner, after)) :
    ∃ innerType, after.heap.wrapper? inner = some (.alias self (Heap.location self content).1
      ((Heap.location self content).2 ++ [index]), innerType) := by
  have concerns := concerns_of_slot sound wrapper found
  rw [role] at concerns
  obtain ⟨_, inside⟩ := concerns
  obtain ⟨innerType, shape, registry, host⟩ := sound.wired.handle bridged.registry nested handle
    (Registry.mem_types_of_handle? registered)
  have field : program.fieldType? bridged.host index = some (.struct innerType.host) := by
    rw [fieldType?_field inside, declared, host]
  by_cases alive : world.registryAlive bridged.registry = true
  · have making : Makes program Permission.nothing
        (wrapField bridged.registry handle self content index) world [] (fun ref => [ref]) _ :=
      makes_wrapField wrapper shape registry rfl field
    obtain ⟨ref, made, ended, _, shown⟩ := making
    rw [readField, Operation.run_bind_of_ok (run_wrapperParts wrapper alive)] at ran
    dsimp only at ran
    rw [Operation.run_bind_of_ok (run_typeSlot found), role] at ran
    dsimp only at ran
    rw [declared] at ran
    have handled : (Op.handle? bridged.registry nested).run world = (.ok (some handle), world) := by
      rw [Op.handle?, Operation.run_bind_of_ok (run_world world), registered]
      rfl
    rw [Operation.run_bind_of_ok handled, ended, Prod.mk.injEq, Except.ok.injEq] at ran
    obtain ⟨rfl, rfl⟩ := ran
    exact ⟨innerType, shown⟩
  · rw [readField, Operation.run_bind_of_error (run_wrapperParts_of_dead wrapper alive)] at ran
    cases ran

/-- An attribute that is declared with a registered struct is read as an alias. -/
theorem getAttribute_alias (sound : world.Sound program held) {self : Ref} {name : String}
    {content : Held} {bridged : BridgedType} {index : Nat} {nested : StructId} {handle : Ref}
    (wrapper : world.heap.wrapper? self = some (content, bridged))
    (named : program.fieldNamed? bridged.host name = some index)
    (declared : (program.field bridged.host index).type = .struct nested)
    (registered : (world.registry bridged.registry).handle? nested = some handle)
    {inner : Ref} {after : World}
    (ran : (program.getAttribute self name).run world = (.ok inner, after)) :
    ∃ innerType, after.heap.wrapper? inner = some (.alias self (Heap.location self content).1
      ((Heap.location self content).2 ++ [index]), innerType) := by
  obtain ⟨slot, found, role, same⟩ := run_getAttribute_field sound.wired wrapper named
  rw [same] at ran
  exact readField_alias sound wrapper found role declared registered ran

end Program

/-! ## Chains -/

/-- How a wrapper of a session has come about: it owns its value, or it has been
read from such a wrapper.  It is still there after all requests since then. -/
inductive Chain (program : Program) (root : Ref) : List Nat → Ref → World → Multiset Ref → Prop
  | root {world : World} {held : Multiset Ref} {value : HostValue}
      (session : Session program world held)
      (owned : world.heap.ownedValue? root = some value) : Chain program root [] root world held
  | field {before after : World} {held : Multiset Ref} {path : List Nat} {self inner : Ref}
      {name : String} {content : Held} {bridged : BridgedType} {index : Nat} {nested : StructId}
      {handle : Ref} (outer : Chain program root path self before held)
      (wrapper : before.heap.wrapper? self = some (content, bridged))
      (named : program.fieldNamed? bridged.host name = some index)
      (declared : (program.field bridged.host index).type = .struct nested)
      (registered : (before.registry bridged.registry).handle? nested = some handle)
      (run : (program.getAttribute self name).run before = (.ok inner, after)) :
      Chain program root (path ++ [index]) inner after ({inner} + held)
  | later {before after : World} {rest : Multiset Ref} {path : List Nat} {ref : Ref}
      {request : Request} {result : Except Fault (List Ref)}
      (chain : Chain program root path ref before (request.spent + rest))
      (allowed : request.Allowed program before)
      (run : (request.run program).run before = (result, after))
      (present : after.heap.holds ref = true) :
      Chain program root path ref after (gained result + rest)

namespace Chain

variable {root ref : Ref} {path : List Nat}

/-- A chain is part of a session, and its wrapper denotes the path of fields. -/
theorem session_denotes (honest : program.Honest) (chain : Chain program root path ref world held) :
    Session program world held ∧ ∃ part, world.Denotes ref root path part := by
  induction chain with
  | root session owned => exact ⟨session, _, (session.sound honest).wired.denotes_root owned⟩
  | @field before after held path self inner name content bridged index nested handle outer wrapper
      named declared registered run ih =>
    obtain ⟨session, part, content', bridged', value, wrapper', location, _⟩ := ih
    rw [wrapper, Option.some.injEq, Prod.mk.injEq] at wrapper'
    obtain ⟨rfl, rfl⟩ := wrapper'
    have sound := session.sound honest
    obtain ⟨cell, _, _, present, _⟩ := Heap.wrapper?_eq_some.mp wrapper
    have allowed : (Request.getAttribute self name).Allowed program before :=
      ⟨fun ref member => by
        rw [List.mem_singleton.mp member]
        exact Heap.place_lt_size present, trivial⟩
    have ran : ((Request.getAttribute self name).run program).run before = (.ok [inner], after) := by
      rw [Request.run, Operation.run_bind_of_ok run]
      rfl
    have next : Session program after (gained (.ok [inner]) + held) :=
      .request (.getAttribute self name)
        (by rwa [show (Request.getAttribute self name).spent = 0 from rfl, zero_add]) allowed ran
    obtain ⟨innerType, shown⟩ :=
      Program.getAttribute_alias sound wrapper named declared registered run
    refine ⟨next, ?_⟩
    have denotes := (next.sound honest).wired.denotes shown
    rw [location] at denotes
    exact denotes
  | @later before after rest path ref request result chain allowed run present ih =>
    obtain ⟨session, part, content, bridged, value, wrapper, location, _⟩ := ih
    have next : Session program after (gained result + rest) := .request request session allowed run
    have soundNext := next.sound honest
    have leads : World.Leads program Permission.anything before after :=
      ⟨_, _, Session.path_request honest (session.sound honest) allowed run⟩
    obtain ⟨later, found⟩ := Option.isSome_iff_exists.mp present
    obtain ⟨content', wrapper', same⟩ := leads.wrapper_of_present soundNext.wired wrapper found
    refine ⟨next, ?_⟩
    have denotes := soundNext.wired.denotes wrapper'
    rw [same, location] at denotes
    exact denotes

/-- A wrapper that the client goes on holding is there after each request, even if
the client lets go of all others, and clears the registry. -/
theorem later_of_held (honest : program.Honest) {before after : World} {rest : Multiset Ref}
    {request : Request} {result : Except Fault (List Ref)}
    (chain : Chain program root path ref before (request.spent + rest)) (member : ref ∈ rest)
    (allowed : request.Allowed program before)
    (run : (request.run program).run before = (result, after)) :
    Chain program root path ref after (gained result + rest) := by
  obtain ⟨session, part, content, bridged, value, wrapper, _⟩ := chain.session_denotes honest
  have sound := session.sound honest
  have taken := Session.path_request honest sound allowed run
  obtain ⟨content', wrapper', _⟩ := taken.keeps_wrapper sound wrapper member
  obtain ⟨cell, _, _, found, _⟩ := Heap.wrapper?_eq_some.mp wrapper'
  exact chain.later allowed run (Option.isSome_iff_exists.mpr ⟨cell, found⟩)

end Chain

end HostBridge
