import HostBridge.Proofs.Ownership.Export
import HostBridge.Proofs.Publishing.Recursion

/-!
# Registrations

A host type is registered from its zero value or with a constructor.  A struct that is
registered already is found, whatever module, name and constructor are given with it; any
other one is published along with what it leads to.  A type that is no struct, and a
constructor that makes something else, are refused before anything happens.
-/

namespace HostBridge

/-- A host type that is to be exported, from its zero value or with a constructor. -/
inductive TypeExport where
  | zeroed (type : HostType)
  | constructed (code : Nat)

namespace TypeExport

/-- The type that is exported. -/
def type (program : Program) : TypeExport → HostType
  | zeroed type => type
  | constructed code => (program.maker code).subject

/-- The constructor that it is exported with. -/
def maker : TypeExport → Option Nat
  | zeroed _ => none
  | constructed code => some code

/-- The constructor, if there is one, is accepted. -/
def Proper (program : Program) (item : TypeExport) : Prop :=
  ∀ code ∈ item.maker, (program.maker code).Proper

end TypeExport

/-- A type that is to be exported into a module. -/
structure Registration where
  bridge : Bridge
  item : TypeExport
  module : Ref
  name : String
  doc : String

namespace Registration

variable (program : Program)

/-- Carry out a registration. -/
def run (registration : Registration) : Op Ref :=
  match registration.item with
  | .zeroed type => program.registerType registration.bridge type registration.module
      registration.name registration.doc
  | .constructed code => program.registerTypeWith registration.bridge code registration.module
      registration.name registration.doc

/-- The struct that is registered, perhaps by way of a box. -/
def Concerns (registration : Registration) (id : StructId) : Prop :=
  (registration.item.type program).unboxed = .struct id

variable {program} {registration : Registration} {world : World} {id : StructId}

theorem run_register_of_known {registry : RegistryId} {type : HostType} {module : Ref}
    {name doc : String} {maker : Option Nat} {handle : Ref} (struct : type.unboxed = .struct id)
    (known : (world.registry registry).handle? id = some handle) :
    (program.register registry type module name doc maker).run world =
      (.ok handle, world.retain handle) := by
  have looked : (Op.handle? registry id).run world = (.ok (some handle), world) := by
    rw [← known]
    rfl
  rw [Program.register, Program.registerBy, struct]
  dsimp only
  rw [Operation.run_bind_of_ok looked]
  rfl

theorem run_register_of_unknown {registry : RegistryId} {type : HostType} {module : Ref}
    {name doc : String} {maker : Option Nat} (struct : type.unboxed = .struct id)
    (unknown : (world.registry registry).handle? id = none) :
    (program.register registry type module name doc maker).run world =
      (program.registerStruct registry module program.structs.length id name doc maker >>=
        Op.retain).run world := by
  have looked : (Op.handle? registry id).run world = (.ok none, world) := by
    rw [← unknown]
    rfl
  rw [Program.register, Program.registerBy, struct]
  dsimp only
  rw [Operation.run_bind_of_ok looked]

/-- A type that stands for a struct is the struct or a box of it. -/
theorem unboxed_cases {type : HostType} (struct : type.unboxed = .struct id) :
    type = .struct id ∨ type = .boxed (.struct id) := by
  cases type <;> simp_all [HostType.unboxed]

/-- The type of a struct that is not registered is not found, nor is a box of it. -/
theorem run_typeHandle_of_unknown {registry : RegistryId} {type : HostType}
    (struct : type.unboxed = .struct id) (unknown : (world.registry registry).handle? id = none) :
    (Program.typeHandle? registry type).run world = (.ok none, world) := by
  rcases unboxed_cases struct with rfl | rfl
  · exact congrArg (fun found => (Except.ok found, world)) unknown
  · rfl

/-- A struct that is registered is found, whatever else it would be registered with.  Only a
constructor for a box is looked at first. -/
theorem run_of_known {handle : Ref} (struct : registration.Concerns program id)
    (accepted : registration.item.type program = .struct id ∨ registration.item.Proper program)
    (known : (world.registry registration.bridge.registry).handle? id = some handle) :
    (registration.run program).run world = (.ok handle, world.retain handle) := by
  obtain ⟨bridge, item, module, name, doc⟩ := registration
  cases item with
  | zeroed type => exact run_register_of_known struct known
  | constructed code =>
    show (program.registerTypeWith bridge code module name doc).run world = _
    rw [Program.registerTypeWith, Program.registerMade]
    rcases unboxed_cases struct with plain | boxed
    · have looked : (Program.typeHandle? bridge.registry (program.maker code).subject).run world =
          (.ok (some handle), world) := by
        rw [show (program.maker code).subject = .struct id from plain]
        exact congrArg (fun found => (Except.ok found, world)) known
      rw [Operation.run_bind_of_ok looked]
      rfl
    · have boxed' : (program.maker code).subject = .boxed (.struct id) := boxed
      have looked : (Program.typeHandle? bridge.registry (program.maker code).subject).run world =
          (.ok none, world) := by
        rw [boxed']
        rfl
      have proper : (program.maker code).Proper := by
        rcases accepted with plain | proper
        · rw [show (program.maker code).subject = .struct id from plain] at boxed'
          cases boxed'
        · exact proper code rfl
      rw [Operation.run_bind_of_ok looked]
      dsimp only
      rw [Operation.run_bind_of_ok (Program.run_classify_of_proper proper world)]
      exact run_register_of_known struct known

/-- The constructor of a struct that is not registered is looked at first. -/
theorem run_of_unknown (struct : registration.Concerns program id)
    (proper : registration.item.Proper program)
    (unknown : (world.registry registration.bridge.registry).handle? id = none) :
    (registration.run program).run world =
      (program.registerStruct registration.bridge.registry registration.module
        program.structs.length id registration.name registration.doc registration.item.maker >>=
          Op.retain).run world := by
  obtain ⟨bridge, item, module, name, doc⟩ := registration
  cases item with
  | zeroed type => exact run_register_of_unknown struct unknown
  | constructed code =>
    show (program.registerTypeWith bridge code module name doc).run world = _
    have looked : (Program.typeHandle? bridge.registry (program.maker code).subject).run world =
        (.ok none, world) := run_typeHandle_of_unknown struct unknown
    rw [Program.registerTypeWith, Program.registerMade, Operation.run_bind_of_ok looked]
    dsimp only
    rw [Operation.run_bind_of_ok (Program.run_classify_of_proper (proper code rfl) world)]
    exact run_register_of_unknown struct unknown

/-- A constructor that makes something else is not accepted, unless it is not looked at. -/
theorem run_of_improper (world : World) (struct : registration.Concerns program id)
    (improper : ¬registration.item.Proper program)
    (missed : registration.item.type program = .struct id →
      (world.registry registration.bridge.registry).handle? id = none) :
    ∃ name subject product, (registration.run program).run world =
      (.error (.panicked (.wrongProduct name subject product)), world) := by
  obtain ⟨bridge, item, module, name, doc⟩ := registration
  cases item with
  | zeroed type => exact absurd (fun code given => by cases given) improper
  | constructed code =>
    have refused : ¬(program.maker code).Proper := by
      intro proper
      refine improper fun other given => ?_
      cases given
      exact proper
    have looked : (Program.typeHandle? bridge.registry (program.maker code).subject).run world =
        (.ok none, world) := by
      rcases unboxed_cases struct with plain | boxed
      · exact run_typeHandle_of_unknown struct (missed plain)
      · rw [show (program.maker code).subject = .boxed (.struct id) from boxed]
        rfl
    have ran : (program.registerTypeWith bridge code module name doc).run world =
        (.error (.panicked (.wrongProduct (program.maker code).name
          (program.typePath (program.maker code).subject)
          (program.typePath (program.maker code).result))), world) := by
      rw [Program.registerTypeWith, Program.registerMade, Operation.run_bind_of_ok looked]
      dsimp only
      rw [Operation.run_bind_of_error (Program.run_classify_of_improper refused world)]
    exact ⟨_, _, _, ran⟩

/-- The struct is published along with what it leads to; the caller gets the handle. -/
theorem registers (struct : registration.Concerns program id)
    (proper : registration.item.Proper program)
    (created : registration.bridge.registry.number < world.registries.size)
    (counted : world.heap.Counted)
    (unknown : (world.registry registration.bridge.registry).handle? id = none) :
    program.Registers registration.bridge.registry registration.module
      (registration.run program) world
      (program.Headed program.structs.length id registration.name registration.doc
        registration.item.maker)
      (program.Declared id ∧ program.Resolves)
      fun handle after made => made.head?.map Publication.handle = some handle ∧
        ∀ one ∈ made, program.Leads registration.bridge.registry after one := by
  unfold Program.Registers
  rw [run_of_unknown struct proper unknown]
  have publishing := program.registersStructs registration.bridge.registry registration.module
    program.structs.length id registration.name registration.doc registration.item.maker world
    created counted (not_not.mpr unknown)
  refine (publishing.weaken (fun _ headed => headed) ?_ fun _ _ _ _ _ holds => holds).bind created ?_
  · exact fun enough => ⟨enough.1, enough.2, program.missing_le _⟩
  · rintro handle after made publishes headed ⟨first, leads⟩
    refine .retain handle ?_ ?_
    · rwa [List.append_nil]
    · rw [List.append_nil]
      exact ⟨first, leads⟩

/-- A type that is no struct is not registered. -/
theorem run_of_other (world : World) (other : ∀ id, ¬registration.Concerns program id) :
    ∃ misuse, (registration.run program).run world = (.error (.panicked misuse), world) := by
  have refused : ∀ (type : HostType) (maker : Option Nat), (∀ id, type.unboxed ≠ .struct id) →
      (program.register registration.bridge.registry type registration.module registration.name
        registration.doc maker).run world =
          (.error (.panicked (.notAStruct (program.typeName type.unboxed))), world) := by
    intro type maker other
    rw [Program.register, Program.registerBy]
    split
    · rename_i id struct
      exact absurd struct (other id)
    · rfl
  obtain ⟨bridge, item, module, name, doc⟩ := registration
  cases item with
  | zeroed type => exact ⟨_, refused type none other⟩
  | constructed code =>
    have looked : (Program.typeHandle? bridge.registry (program.maker code).subject).run world =
        (.ok none, world) := by
      cases shape : (program.maker code).subject with
      | struct id =>
        refine absurd ?_ (other id)
        show (program.maker code).subject.unboxed = _
        rw [shape]
        rfl
      | _ => rfl
    by_cases proper : (program.maker code).Proper
    · refine ⟨.notAStruct (program.typeName (program.maker code).subject.unboxed), ?_⟩
      show (program.registerTypeWith bridge code module name doc).run world = _
      rw [Program.registerTypeWith, Program.registerMade, Operation.run_bind_of_ok looked]
      dsimp only
      rw [Operation.run_bind_of_ok (Program.run_classify_of_proper proper world)]
      exact refused _ _ other
    · refine ⟨.wrongProduct (program.maker code).name
        (program.typePath (program.maker code).subject)
        (program.typePath (program.maker code).result), ?_⟩
      show (program.registerTypeWith bridge code module name doc).run world = _
      rw [Program.registerTypeWith, Program.registerMade, Operation.run_bind_of_ok looked]
      dsimp only
      rw [Operation.run_bind_of_error (Program.run_classify_of_improper proper world)]

variable {before after : World} {handle : Ref}

/--
What a successful registration of a struct has done: it has published some structs, or found
the struct registered, and the caller gets the handle of the struct.
-/
theorem publishes_of_ok (struct : registration.Concerns program id)
    (created : registration.bridge.registry.number < before.registries.size)
    (counted : before.heap.Counted)
    (ran : (registration.run program).run before = (.ok handle, after)) :
    ∃ made, program.Publishes registration.bridge.registry registration.module before after
        made made ∧
      (after.registry registration.bridge.registry).handle? id = some handle ∧
      (∀ one ∈ made, program.Reaches id one.id ∧
        one.name = (if one.id = id then registration.name else (program.struct one.id).name) ∧
        one.maker = if one.id = id then registration.item.maker else none) ∧
      ∀ one ∈ made, program.Leads registration.bridge.registry after one := by
  by_cases proper : registration.item.Proper program
  · cases found : (before.registry registration.bridge.registry).handle? id with
    | some known =>
      rw [run_of_known struct (.inr proper) found] at ran
      cases ran
      exact ⟨[], .retain before _, found, by simp, by simp⟩
    | none =>
      obtain ⟨made, shown, publishes, headed, ended⟩ :=
        registers struct proper created counted found
      rw [ran] at publishes ended
      obtain ⟨rfl, first, leads⟩ := ended
      refine ⟨shown, publishes, ?_, ?_, leads⟩
      · rw [publishes.handle?_after created, found, Option.none_or]
        cases headed with
        | refused => cases first
        | begun other rest plain =>
          cases first
          exact List.lookup_cons_self
      · refine fun one member => ⟨headed.reaches one member, ?_⟩
        have distinct := publishes.distinct
        cases headed with
        | refused => cases member
        | begun other rest plain =>
          rcases List.mem_cons.mp member with rfl | later
          · rw [if_pos rfl, if_pos rfl]
            exact ⟨rfl, rfl⟩
          · have apart : ¬one.id = id := by
              rintro rfl
              exact (List.nodup_cons.mp distinct).1 (List.mem_map.mpr ⟨one, later, rfl⟩)
            rw [if_neg apart, if_neg apart]
            exact ⟨(plain one later).1.name, (plain one later).1.maker⟩
  · -- The constructor has not been looked at, so the struct is registered.
    cases found : (before.registry registration.bridge.registry).handle? id with
    | none =>
      obtain ⟨_, _, _, refused⟩ := run_of_improper before struct proper fun _ => found
      rw [refused] at ran
      cases ran
    | some known =>
      by_cases plain : registration.item.type program = .struct id
      · rw [run_of_known struct (.inl plain) found] at ran
        cases ran
        exact ⟨[], .retain before _, found, by simp, by simp⟩
      · obtain ⟨_, _, _, refused⟩ :=
          run_of_improper before struct proper fun same => absurd same plain
        rw [refused] at ran
        cases ran

/-- A registration ends, however the structs refer to each other. -/
theorem run_ne_exhausted (struct : registration.Concerns program id)
    (created : registration.bridge.registry.number < before.registries.size)
    (counted : before.heap.Counted) (declared : program.Declared id)
    (resolves : program.Resolves) :
    ((registration.run program).run before).1 ≠ .error .exhausted := by
  by_cases proper : registration.item.Proper program
  · cases found : (before.registry registration.bridge.registry).handle? id with
    | some known =>
      rw [run_of_known struct (.inr proper) found]
      simp
    | none =>
      obtain ⟨made, shown, publishes, headed, ended⟩ :=
        registers struct proper created counted found
      rcases ran : (registration.run program).run before with ⟨result, after⟩
      rw [ran] at ended
      cases result with
      | ok value => simp
      | error fault =>
        rintro ⟨⟩
        exact ended.2 ⟨declared, resolves⟩ rfl
  · by_cases looked : registration.item.type program = .struct id ∧
        (before.registry registration.bridge.registry).handle? id ≠ none
    · obtain ⟨known, found⟩ := Option.ne_none_iff_exists'.mp looked.2
      rw [run_of_known struct (.inl looked.1) found]
      simp
    · obtain ⟨_, _, _, refused⟩ := run_of_improper before struct proper
        fun plain => by simpa [plain] using looked
      rw [refused]
      simp

end Registration

end HostBridge
