import HostBridge.Proofs.Publishing.Registration
import HostBridge.Proofs.Session.Reachable
import HostBridge.Proofs.Calling.Rejection

/-!
# What a rejected registration leaves behind

A registration is declined before anything happens if the type is no struct, if the
constructor makes something else, or if the struct has too many slots.  Any other
rejection comes too late: a type enters the registry before its name is defined, so the
struct stays registered, without a name if that was taken, and so do those that were
registered along with it.  A later registration finds them and publishes nothing.
-/

namespace HostBridge

namespace Registration

variable {program : Program} {registration : Registration} {world after : World} {id : StructId}

/-- A registration that is rejected before anything happens. -/
def Declined (program : Program) (registration : Registration) : Prop :=
  (∀ id, ¬registration.Concerns program id) ∨ ¬registration.item.Proper program ∨
    ∃ id, registration.Concerns program id ∧
      slotCapacity < (program.plan id registration.item.maker).slots.length

/-- A struct with too many slots is refused; only its constructor has been announced. -/
theorem run_registerStruct_of_crowded {registry : RegistryId} {module : Ref} {depth : Nat}
    {name doc : String} {maker : Option Nat}
    (crowded : slotCapacity < (program.plan id maker).slots.length) :
    ∃ after, (program.registerStruct registry module (depth + 1) id name doc maker).run world =
        (.error (.panicked (.tooManySlots (program.struct id).name
          (program.plan id maker).slots.length slotCapacity)), after) ∧
      world.Untouched after := by
  rw [Program.registerStruct_succ]
  rcases maker with _ | code
  · dsimp only
    rw [if_pos crowded]
    exact ⟨world, rfl, fun _ => rfl, rfl⟩
  · dsimp only
    rw [if_pos crowded]
    exact ⟨_, rfl, fun _ => rfl, rfl⟩

/-- A struct that has too many slots is refused before anything is registered. -/
theorem run_of_crowded (struct : registration.Concerns program id)
    (proper : registration.item.Proper program) (declared : program.Declared id)
    (unknown : (world.registry registration.bridge.registry).handle? id = none)
    (crowded : slotCapacity < (program.plan id registration.item.maker).slots.length) :
    ∃ after, (registration.run program).run world =
        (.error (.panicked (.tooManySlots (program.struct id).name
          (program.plan id registration.item.maker).slots.length slotCapacity)), after) ∧
      world.Untouched after := by
  obtain ⟨depth, enough⟩ : ∃ depth, program.structs.length = depth + 1 :=
    Nat.exists_eq_succ_of_ne_zero (Nat.ne_of_gt (Nat.zero_lt_of_lt declared))
  rw [run_of_unknown struct proper unknown, enough]
  obtain ⟨after, ran, untouched⟩ := run_registerStruct_of_crowded crowded
  exact ⟨after, Operation.run_bind_of_error ran _, untouched⟩

/-- A registration that is rejected and was not declined stops in the course of publishing. -/
theorem stopped_of_error {fault : Fault} (created :
    registration.bridge.registry.number < world.registries.size) (counted : world.heap.Counted)
    (declared : ∀ id, registration.Concerns program id → program.Declared id)
    (accepted : ¬registration.Declined program)
    (ran : (registration.run program).run world = (.error fault, after)) :
    ∃ id made shown, registration.Concerns program id ∧
      program.Publishes registration.bridge.registry registration.module world after made shown ∧
      Program.Stopped made shown fault ∧ ∃ one ∈ made, one.id = id ∧ one.name = registration.name := by
  simp only [Declined, not_or, not_forall, not_not, not_exists, not_and] at accepted
  obtain ⟨⟨id, struct⟩, proper, roomy⟩ := accepted
  cases found : (world.registry registration.bridge.registry).handle? id with
  | some known =>
    rw [run_of_known struct (.inr proper) found] at ran
    cases ran
  | none =>
    obtain ⟨made, shown, publishes, headed, ended⟩ := registers struct proper created counted found
    rw [ran] at publishes ended
    refine ⟨id, made, shown, struct, publishes, ended.1, ?_⟩
    cases headed with
    | refused why =>
      rcases why with none | crowded
      · have some := Nat.zero_lt_of_lt (declared id struct)
        rw [none] at some
        exact absurd some (Nat.lt_irrefl 0)
      · exact absurd crowded (roomy id struct)
    | begun handle rest plain => exact ⟨_, List.mem_cons_self, rfl, rfl⟩

/-- A registration that is declined changes nothing. -/
theorem untouched_of_declined {fault : Fault}
    (declared : ∀ id, registration.Concerns program id → program.Declared id)
    (declined : registration.Declined program)
    (ran : (registration.run program).run world = (.error fault, after)) :
    world.Untouched after := by
  have same : after = world → world.Untouched after := by
    rintro rfl
    exact ⟨fun _ => rfl, rfl⟩
  by_cases struct : ∃ id, registration.Concerns program id
  · obtain ⟨id, struct⟩ := struct
    by_cases proper : registration.item.Proper program
    · cases found : (world.registry registration.bridge.registry).handle? id with
      | some known =>
        rw [run_of_known struct (.inr proper) found] at ran
        cases ran
      | none =>
        rcases declined with none | improper | ⟨other, struct', crowded⟩
        · exact absurd struct (none id)
        · exact absurd proper improper
        · obtain rfl : other = id := HostType.struct.inj (struct'.symm.trans struct)
          obtain ⟨last, ran', untouched⟩ :=
            run_of_crowded struct proper (declared _ struct) found crowded
          rw [ran'] at ran
          cases ran
          exact untouched
    · by_cases looked : registration.item.type program = .struct id ∧
          (world.registry registration.bridge.registry).handle? id ≠ none
      · obtain ⟨known, found⟩ := Option.ne_none_iff_exists'.mp looked.2
        rw [run_of_known struct (.inl looked.1) found] at ran
        cases ran
      · obtain ⟨_, _, _, refused⟩ := run_of_improper world struct proper
          fun plain => by simpa [plain] using looked
        rw [refused] at ran
        cases ran
        exact same rfl
  · obtain ⟨_, refused⟩ := run_of_other world (not_exists.mp struct)
    rw [refused] at ran
    cases ran
    exact same rfl

end Registration

/--
A registration that is declined has changed nothing.  One that is rejected later leaves behind
what it has entered into the registry so far, the struct that was to be registered among it,
and what it has shown.  Each struct that it leaves behind stays registered: a later registration
finds it, whatever name it is given, and defines no name for it.
-/
theorem Session.rejected_registration_remains {program : Program} (honest : program.Honest)
    {start world after : World} {kept held : Multiset Ref} (session : Session program start kept)
    (path : Path program Permission.anything start kept world held)
    {registration : Registration} {fault : Fault}
    (declared : ∀ id, registration.Concerns program id → program.Declared id)
    (created : registration.bridge.registry.number < world.registries.size)
    (ran : (registration.run program).run world = (.error fault, after)) :
    (registration.Declined program → world.Untouched after) ∧
      (¬registration.Declined program → ∃ id made shown, registration.Concerns program id ∧
        program.Publishes registration.bridge.registry registration.module world after made shown ∧
        Program.Stopped made shown fault ∧
        (∃ one ∈ made, one.id = id ∧ one.name = registration.name) ∧
        ∀ one ∈ made,
          (after.registry registration.bridge.registry).handle? one.id = some one.handle ∧
          ∀ again : Registration, again.bridge.registry = registration.bridge.registry →
            again.Concerns program one.id →
            (again.item.type program = .struct one.id ∨ again.item.Proper program) →
              (again.run program).run after = (.ok one.handle, after.retain one.handle)) := by
  have tidy : world.Tidy := path.tidy (session.tidy honest)
  refine ⟨fun declined => Registration.untouched_of_declined declared declined ran,
    fun accepted => ?_⟩
  obtain ⟨id, made, shown, struct, publishes, stopped, first⟩ :=
    Registration.stopped_of_error created tidy.counted declared accepted ran
  refine ⟨id, made, shown, struct, publishes, stopped, first, fun one member => ?_⟩
  have found := publishes.handle?_of_mem created member
  refine ⟨found, fun again same struct' fits => ?_⟩
  rw [← same] at found
  exact Registration.run_of_known struct' fits found

namespace Figures

/-- Requests after which a module defines the name of a struct that is not registered. -/
def occupied : List Request :=
  [.addObject ⟨4⟩ "Point" .none, .createBridgeModule bridge "figures" "", .connect ⟨0⟩,
    .start ⟨"", [], 128⟩]

set_option maxRecDepth 10000 in
theorem playable_occupied : Request.Playable program occupied := by
  have facts : (((Request.played program (occupied.drop 3)).interpreter ⟨0⟩).owners,
      ((Request.played program (occupied.drop 2)).interpreter ⟨0⟩).owners,
      (Request.played program (occupied.drop 1)).heap.size) = (1, 2, 5) := by cbv
  simp only [Prod.mk.injEq] at facts
  obtain ⟨started, connected, size⟩ := facts
  have one : 0 < ((Request.played program (occupied.drop 3)).interpreter ⟨0⟩).owners := by
    rw [started]
    exact Nat.zero_lt_one
  have two : 0 < ((Request.played program (occupied.drop 2)).interpreter ⟨0⟩).owners := by
    rw [connected]
    exact Nat.zero_lt_two
  have nothing : ∀ {used : Ref → Prop}, ∀ ref ∈ ([] : List Ref), used ref :=
    fun _ member => by cases member
  refine ⟨⟨⟨⟨trivial, rfl, nothing, trivial⟩, rfl, nothing, one⟩, rfl, nothing, two⟩, rfl, ?_, trivial⟩
  intro ref member
  rw [List.mem_singleton.mp member]
  show Ref.none.place < (Request.played program (occupied.drop 1)).heap.size
  rw [size]
  decide

/-- Points are to be exported into that module, under a name. -/
def pointAs (name : String) : Registration := ⟨bridge, .zeroed (.struct ⟨0⟩), ⟨4⟩, name, ""⟩

end Figures

open Figures in
set_option maxRecDepth 10000 in
/-- Points whose name is taken are left behind. -/
theorem Session.rejected_registration_remains_point :
    ∃ fault after, ((pointAs "Point").run Figures.program).run
        (Request.played Figures.program occupied) = (.error fault, after) ∧
      ∃ made shown, Figures.program.Publishes ⟨0⟩ ⟨4⟩ (Request.played Figures.program occupied)
        after made shown ∧ ∃ one ∈ made, one.id = ⟨0⟩ ∧
          (after.registry ⟨0⟩).handle? ⟨0⟩ = some one.handle := by
  have facts : ((((pointAs "Point").run Figures.program).run
      (Request.played Figures.program occupied)).1,
      (Request.played Figures.program occupied).registries.size) =
    (.error (.panicked (.typeNotPublished "Point" (.nameTaken "figures" "Point"))), 1) := by cbv
  simp only [Prod.mk.injEq] at facts
  obtain ⟨ended, registries⟩ := facts
  have created : (pointAs "Point").bridge.registry.number <
      (Request.played Figures.program occupied).registries.size := by
    rw [registries]
    exact Nat.zero_lt_one
  have declared : ∀ id, (pointAs "Point").Concerns Figures.program id →
      Figures.program.Declared id := by
    rintro _ ⟨⟩
    decide
  have accepted : ¬(pointAs "Point").Declined Figures.program := by
    rintro (none | improper | ⟨id, struct, crowded⟩)
    · exact none ⟨0⟩ rfl
    · exact improper fun code given => by cases given
    · cases struct
      revert crowded
      decide
  rcases ran : ((pointAs "Point").run Figures.program).run
    (Request.played Figures.program occupied) with ⟨result, after⟩
  rw [ran] at ended
  cases ended
  obtain ⟨id, made, shown, struct, publishes, _, ⟨one, member, same, _⟩, later⟩ :=
    (Session.rejected_registration_remains Figures.honest playable_occupied.session (.refl _ _)
      declared created ran).2 accepted
  have point : one.id = ⟨0⟩ := same.trans (HostType.struct.inj struct).symm
  have found := (later one member).1
  rw [point] at found
  exact ⟨_, after, rfl, made, shown, publishes, one, member, point, found⟩

open Figures in
set_option maxRecDepth 10000 in
/-- The rejected registration of points is not without consequences: they are registered, and
they cannot be published under another name as they could have been before. -/
theorem Figures.rejection_changes_later :
    let before := Request.played Figures.program occupied
    let rejected := ((pointAs "Point").run Figures.program).run before
    let later := ((pointAs "Dot").run Figures.program).run rejected.2
    let instead := ((pointAs "Dot").run Figures.program).run before
    rejected.1 =
        .error (.panicked (.typeNotPublished "Point" (.nameTaken "figures" "Point"))) ∧
      (before.registry ⟨0⟩).handle? ⟨0⟩ = none ∧
      (rejected.2.registry ⟨0⟩).handle? ⟨0⟩ = some ⟨5⟩ ∧
      later.1 = .ok ⟨5⟩ ∧ later.2.heap.globalNames ⟨4⟩ = ["Point"] ∧
      instead.1 = .ok ⟨5⟩ ∧ instead.2.heap.globalNames ⟨4⟩ = ["Point", "Dot"] := by
  refine ⟨?_, ?_, ?_, ?_, ?_, ?_, ?_⟩ <;> cbv

end HostBridge
