import HostBridge.Proofs.Ownership.Export
import HostBridge.Proofs.Publishing.Publication

/-!
# Registering structs

What the registration of a struct does, by induction on the depth that it is granted.
Each struct is published before its fields are looked at, so a struct that leads back to
it finds it registered.  A depth for each struct that the registry does not know suffices.
-/

namespace HostBridge.Program

open Op

variable {program : Program} {registry : RegistryId} {module : Ref} {world : World}

/-! ## Operations that publish -/

/--
An operation publishes structs one after the other.  What it has made has a `shape`, however
it ends; with a result, all of it is shown and `post` holds.  It does not run out of depth if
there is `enough`.
-/
def Registers {α : Type} (program : Program) (registry : RegistryId) (module : Ref)
    (action : Op α) (world : World) (shape : List Publication → Prop) (enough : Prop)
    (post : α → World → List Publication → Prop) : Prop :=
  ∃ made shown,
    program.Publishes registry module world (action.run world).2 made shown ∧ shape made ∧
      match action.run world with
      | (.ok value, after) => shown = made ∧ post value after made
      | (.error fault, _) => Stopped made shown fault ∧ (enough → fault ≠ .exhausted)

namespace Registers

variable {α β : Type} {action : Op α} {next : α → Op β} {shape : List Publication → Prop}
  {enough : Prop} {post : α → World → List Publication → Prop}
  {post' : β → World → List Publication → Prop}

theorem pure {value : α} (empty : shape []) (holds : post value world []) :
    Registers program registry module (pure value) world shape enough post :=
  ⟨[], [], .refl world, empty, rfl, holds⟩

/-- Taking a reference publishes nothing. -/
theorem retain {post : Ref → World → List Publication → Prop} (handle : Ref) (empty : shape [])
    (holds : post handle (world.retain handle) []) :
    Registers program registry module (Op.retain handle) world shape enough post :=
  ⟨[], [], .retain world handle, empty, rfl, holds⟩

/-- Operations are done one after the other. -/
theorem bind (created : registry.number < world.registries.size)
    (first : Registers program registry module action world shape enough post)
    (later : ∀ value after made, program.Publishes registry module world after made made →
      shape made → post value after made →
        Registers program registry module (next value) after (fun more => shape (made ++ more))
          enough fun value' after' more => post' value' after' (made ++ more)) :
    Registers program registry module (action >>= next) world shape enough post' := by
  obtain ⟨made, shown, publishes, fits, ended⟩ := first
  rcases ran : action.run world with ⟨result, after⟩
  rw [ran] at publishes ended
  cases result with
  | error fault =>
    refine ⟨made, shown, ?_, fits, ?_⟩
    · rw [Operation.run_bind_of_error ran]
      exact publishes
    · rw [Operation.run_bind_of_error ran]
      exact ended
  | ok value =>
    obtain ⟨rfl, holds⟩ := ended
    obtain ⟨more, shown', publishes', fits', ended'⟩ := later value after shown publishes fits holds
    rw [← Operation.run_bind_of_ok ran next] at publishes' ended'
    refine ⟨shown ++ more, shown ++ shown', publishes.trans created publishes', fits', ?_⟩
    rcases ran' : (action >>= next).run world with ⟨result', after'⟩
    rw [ran'] at ended'
    cases result' with
    | ok value' => exact ⟨by rw [ended'.1], ended'.2⟩
    | error fault => exact ⟨ended'.1.append shown, ended'.2⟩

/-- What only looks at the world comes before anything else. -/
theorem look_bind {value : α} (ran : action.run world = (.ok value, world))
    (later : Registers program registry module (next value) world shape enough post') :
    Registers program registry module (action >>= next) world shape enough post' := by
  unfold Registers at later ⊢
  rwa [Operation.run_bind_of_ok ran]

/-- A log record comes before anything else. -/
theorem note_bind {level : Level} {text : String} {next : Unit → Op β}
    (later : Registers program registry module (next ()) (world.note level text) shape enough post') :
    Registers program registry module (Op.note level text >>= next) world shape enough post' := by
  obtain ⟨made, shown, publishes, rest⟩ := later
  refine ⟨made, shown, ?_, rest⟩
  exact { publishes with }

/-- More is needed to have enough, and less is said of what is made and of the result. -/
theorem weaken {looser : List Publication → Prop} {stronger : Prop}
    {weaker : α → World → List Publication → Prop}
    (registers : Registers program registry module action world shape enough post)
    (fits : ∀ made, shape made → looser made) (grants : stronger → enough)
    (follows : ∀ value after made, program.Publishes registry module world after made made →
      shape made → post value after made → weaker value after made) :
    Registers program registry module action world looser stronger weaker := by
  obtain ⟨made, shown, publishes, shaped, ended⟩ := registers
  refine ⟨made, shown, publishes, fits made shaped, ?_⟩
  rcases ran : action.run world with ⟨result, after⟩
  rw [ran] at publishes ended
  cases result with
  | ok value =>
    obtain ⟨rfl, holds⟩ := ended
    exact ⟨rfl, follows value after shown publishes shaped holds⟩
  | error fault => exact ⟨ended.1, fun given => ended.2 (grants given)⟩

end Registers

/-! ## One struct -/

/-- A new type is entered into the registry. -/
theorem publishes_enroll (module : Ref) (world : World) (name doc : String) (maker : Option Nat)
    {id : StructId} (unknown : (world.registry registry).handle? id = none) :
    program.Publishes registry module world
      ((world.create (.type (program.typeBody registry id name doc maker
        (program.plan id maker)))).2.updateRegistry registry
          (.enroll world.heap.next (bridgedType registry id name maker (program.plan id maker))))
      [⟨id, name, doc, maker, world.heap.next⟩] [] where
  heap := by
    rw [List.map_nil, ModuleBody.defining_nil]
    exact Heap.Edits.create world module (by simp)
  shows none := absurd rfl none
  surroundings :=
    Publishes.surroundings_updateRegistry (world.surroundings_retainAll _)
  bodies one member := by
    rw [List.mem_singleton.mp member]
    have next := Path.heap_retainAll world (Body.type (program.typeBody registry id name doc maker
      (program.plan id maker))).references
    have there := Heap.cell?_push_next (world.retainAll (Body.type (program.typeBody registry id
      name doc maker (program.plan id maker))).references).heap (.type (program.typeBody registry id
        name doc maker (program.plan id maker)))
    rw [next] at there
    exact Heap.body_eq there
  fresh one member := by
    rw [List.mem_singleton.mp member]
    exact le_refl _
  unknown one member := by
    rwa [List.mem_singleton.mp member]
  distinct := List.nodup_singleton _
  handles := List.nodup_singleton _

/-- The name of a type is shown by the module. -/
theorem publishes_show {after : World} (counted : world.heap.Counted) {one : Publication}
    (ran : (Op.addObject module one.name one.handle).run world = (.ok (), after)) :
    program.Publishes registry module world after [] [one] := by
  obtain ⟨there, edits, surroundings⟩ := Op.edits_addObject counted ran
  refine { heap := edits, shows := fun _ => there, surroundings := ?_, bodies := by simp,
           fresh := by simp, unknown := by simp, distinct := .nil, handles := .nil }
  · rw [surroundings, List.map_nil, World.updateRegistry_same (Registry.enrolling_nil _)]

/-- Make the heap type of a struct, enter it and show it. -/
def publishStruct (program : Program) (registry : RegistryId) (module : Ref) (id : StructId)
    (name doc : String) (maker : Option Nat) : Op Ref := do
  let type ← Op.createType (program.typeBody registry id name doc maker (program.plan id maker))
  Op.change (·.updateRegistry registry
    (.enroll type (bridgedType registry id name maker (program.plan id maker))))
  orPanic (Op.addObject module name type) (.typeNotPublished name)
  return type

/-- A struct is entered, and then its name is to be defined. -/
theorem exists_entered (program : Program) (module : Ref) {id : StructId} (name doc : String)
    (maker : Option Nat) (unknown : (world.registry registry).handle? id = none) :
    ∃ handle entered, program.Publishes registry module world entered
        [⟨id, name, doc, maker, handle⟩] [] ∧
      (program.publishStruct registry module id name doc maker).run world = (do
        orPanic (Op.addObject module name handle) (.typeNotPublished name)
        return handle).run entered := by
  rw [publishStruct, Op.createType, bind_assoc, Operation.run_bind_of_ok (Op.run_note _ _ _)]
  generalize noted : world.note .debug _ = first
  have unknown' : (first.registry registry).handle? id = none := by rw [← noted]; exact unknown
  have enrolled := program.publishes_enroll module first name doc maker unknown'
  have next : (first.create (.type (program.typeBody registry id name doc maker
      (program.plan id maker)))).1 = first.heap.next := Path.heap_retainAll first _
  refine ⟨first.heap.next, (first.create (.type (program.typeBody registry id name doc maker
    (program.plan id maker)))).2.updateRegistry registry
      (.enroll first.heap.next (bridgedType registry id name maker (program.plan id maker))), ?_, ?_⟩
  · rw [← noted] at enrolled ⊢
    exact { enrolled with }
  · rw [Operation.run_bind_of_ok (Op.run_create first _), next,
      Operation.run_bind_of_ok (Op.run_change _ _)]

/-- A struct is entered, and it is shown unless its name cannot be defined. -/
theorem registers_publishStruct {id : StructId} {name doc : String} {maker : Option Nat}
    (enough : Prop) (created : registry.number < world.registries.size)
    (counted : world.heap.Counted) (unknown : (world.registry registry).handle? id = none) :
    Registers program registry module
      (program.publishStruct registry module id name doc maker) world
      (fun made => ∃ handle, made = [⟨id, name, doc, maker, handle⟩]) enough
      fun handle _ made => made = [⟨id, name, doc, maker, handle⟩] := by
  obtain ⟨handle, second, entered, continues⟩ :=
    program.exists_entered module name doc maker unknown
  rw [Registers, continues]
  rcases ran : (Op.addObject module name handle).run second with ⟨result, after⟩
  cases result with
  | error fault =>
    obtain ⟨rfl, exception, rfl⟩ := Op.addObject_of_raised ran
    rw [Operation.run_bind_of_error (Program.run_orPanic_of_raised ran _)]
    exact ⟨_, _, entered, ⟨handle, rfl⟩, .hidden [] ⟨id, name, doc, maker, handle⟩ exception,
      fun _ => by simp⟩
  | ok =>
    have shown : program.Publishes registry module second after []
        [⟨id, name, doc, maker, handle⟩] := publishes_show (entered.heap.counted counted) ran
    rw [Operation.run_bind_of_ok (Program.run_orPanic_of_ok ran _)]
    exact ⟨_, _, entered.trans created shown, ⟨handle, rfl⟩, rfl, rfl⟩

/-! ## Structs that fields lead to -/

/-- Register the struct that a field holds, unless it is registered. -/
def registerNested (program : Program) (registry : RegistryId) (module : Ref) (depth : Nat)
    (owner : String) (field : FieldDecl × Nat) : Op Unit := do
  match field.1.type.nested? with
  | none => pure ()
  | some nested =>
    match ← Op.handle? registry nested with
    | some _ => pure ()
    | none =>
      let nestedName := (program.struct nested).name
      Op.note .debug s!"registering {nestedName} for field {owner}.{field.1.name}"
      let _ ← registerStruct program registry module depth nested nestedName "" none

/-- A struct with a constructor is announced, refused if it has too many slots, published, and
followed by those that its fields lead to. -/
theorem registerStruct_succ (depth : Nat) (id : StructId) (name doc : String)
    (maker : Option Nat) :
    program.registerStruct registry module (depth + 1) id name doc maker = (do
      match maker with
      | some code =>
        Op.note .trace
          s!"{(program.struct id).name}: constructor {(program.maker code).name} at slot 0"
      | none => pure ()
      if slotCapacity < (program.plan id maker).slots.length then
        Op.panic (.tooManySlots (program.struct id).name (program.plan id maker).slots.length
          slotCapacity)
      let type ← program.publishStruct registry module id name doc maker
      Op.note .debug
        s!"registered {(program.struct id).name} as {moduleName (← Op.heap) module}.{name}"
      (exportedFields (program.struct id)).forM
        (program.registerNested registry module depth (program.struct id).name)
      return type) := by
  rcases maker with _ | code <;>
  · rw [registerStruct, registerStructBy, publishStruct]
    simp only [bind_assoc, pure_bind]
    rfl

/-- A world in which a registry knows a struct. -/
def Knows (registry : RegistryId) (world : World) (id : StructId) : Prop :=
  (world.registry registry).handle? id ≠ none

/-- The registry knows all structs that a published one leads to. -/
def Leads (program : Program) (registry : RegistryId) (world : World) (one : Publication) : Prop :=
  ∀ inner, program.Nests one.id inner → Knows registry world inner

/-- Fields lead to a struct by way of one of them. -/
def LeadTo (program : Program) (fields : List (FieldDecl × Nat)) (id : StructId) : Prop :=
  ∃ field ∈ fields, ∃ inner, field.1.type.nested? = some inner ∧ program.Reaches inner id

/-- The depth suffices for the structs that are not known, and those are declared. -/
structure Granted (program : Program) (registry : Registry) (depth : Nat) : Prop where
  resolves : program.Resolves
  missing : program.missing registry ≤ depth

/-- What has been published of a struct: nothing, or the struct itself under the given name
and after it others that it leads to. -/
inductive Headed (program : Program) (depth : Nat) (id : StructId) (name doc : String)
    (maker : Option Nat) : List Publication → Prop
  | refused (why : depth = 0 ∨ slotCapacity < (program.plan id maker).slots.length) :
    Headed program depth id name doc maker []
  | begun (handle : Ref) (rest : List Publication)
      (plain : ∀ one ∈ rest, one.Plain program ∧ program.Reaches id one.id) :
    Headed program depth id name doc maker (⟨id, name, doc, maker, handle⟩ :: rest)

namespace Headed

variable {depth : Nat} {id : StructId} {name doc : String} {maker : Option Nat}
  {made : List Publication}

/-- The struct and those published along with it are reached from it. -/
theorem reaches (headed : program.Headed depth id name doc maker made) :
    ∀ one ∈ made, program.Reaches id one.id := by
  cases headed with
  | refused => simp
  | begun handle rest plain =>
    intro one member
    rcases List.mem_cons.mp member with rfl | later
    · exact .refl
    · exact (plain one later).2

/-- A struct under its declared name is published like those that come along with it. -/
theorem plain (headed : program.Headed depth id (program.struct id).name "" none made) :
    ∀ one ∈ made, one.Plain program := by
  cases headed with
  | refused => simp
  | begun handle rest plain =>
    intro one member
    rcases List.mem_cons.mp member with rfl | later
    · exact ⟨rfl, rfl, rfl⟩
    · exact (plain one later).1

/-- If anything has been published, so has the struct. -/
theorem mem (headed : program.Headed depth id name doc maker made) (some : made ≠ []) :
    ∃ one ∈ made, one.id = id := by
  cases headed with
  | refused => exact absurd rfl some
  | begun handle rest plain => exact ⟨_, List.mem_cons_self, rfl⟩

end Headed

namespace Publishes

variable {before after : World} {made shown : List Publication}

/-- What is known stays known. -/
theorem knows (publishes : program.Publishes registry module before after made shown)
    (created : registry.number < before.registries.size) {id : StructId}
    (known : Knows registry before id) : Knows registry after id := by
  exact fun none => known ((publishes.handle?_eq_none created).mp none).1

/-- What has been entered is known. -/
theorem knows_entered (publishes : program.Publishes registry module before after made shown)
    (created : registry.number < before.registries.size) {one : Publication}
    (member : one ∈ made) : Knows registry after one.id := by
  exact fun none => ((publishes.handle?_eq_none created).mp none).2
    (List.mem_map.mpr ⟨one, member, rfl⟩)

/-- What was enough is enough for what is left to do. -/
theorem granted (publishes : program.Publishes registry module before after made shown)
    (created : registry.number < before.registries.size) {depth : Nat}
    (granted : program.Granted (before.registry registry) depth) :
    program.Granted (after.registry registry) depth := by
  refine ⟨granted.resolves, ?_⟩
  rw [publishes.registry_after created]
  exact (program.missing_enrolling_le _ _).trans granted.missing

end Publishes

/-- A way to register structs: it publishes the struct and what that leads to. -/
def RegistersStructs (program : Program) (registry : RegistryId) (module : Ref) (depth : Nat) :
    Prop :=
  ∀ (id : StructId) (name doc : String) (maker : Option Nat) (world : World),
    registry.number < world.registries.size → world.heap.Counted → ¬Knows registry world id →
      Registers program registry module
        (program.registerStruct registry module depth id name doc maker) world
        (Headed program depth id name doc maker)
        (program.Declared id ∧ program.Granted (world.registry registry) depth)
        fun handle after made => made.head?.map Publication.handle = some handle ∧
          ∀ one ∈ made, program.Leads registry after one

/-- The struct that a field holds is known in the end. -/
theorem registers_registerNested {depth : Nat}
    (structs : program.RegistersStructs registry module depth) (owner : String)
    (field : FieldDecl × Nat) (created : registry.number < world.registries.size)
    (counted : world.heap.Counted) :
    Registers program registry module (program.registerNested registry module depth owner field)
      world (fun made => ∀ one ∈ made, one.Plain program ∧ program.LeadTo [field] one.id)
      ((∀ inner, field.1.type.nested? = some inner → program.Declared inner) ∧
        program.Granted (world.registry registry) depth)
      fun _ after made => (∀ one ∈ made, program.Leads registry after one) ∧
        ∀ inner, field.1.type.nested? = some inner → Knows registry after inner := by
  rw [registerNested]
  cases held : field.1.type.nested? with
  | none => exact .pure (by simp) ⟨by simp, by simp⟩
  | some nested =>
    dsimp only
    have looked : (Op.handle? registry nested).run world =
        (.ok ((world.registry registry).handle? nested), world) := rfl
    refine .look_bind looked ?_
    cases found : (world.registry registry).handle? nested with
    | some handle =>
      refine .pure (by simp) ⟨by simp, ?_⟩
      rintro _ ⟨⟩
      rw [Knows, found]
      simp
    | none =>
      refine .note_bind ?_
      generalize noted : world.note _ _ = first
      have created' : registry.number < first.registries.size := by rw [← noted]; exact created
      have same : first.registry registry = world.registry registry := by rw [← noted]; rfl
      have registered := structs nested (program.struct nested).name "" none first created'
        (by rw [← noted]; exact counted) (by rw [Knows, same]; exact not_not.mpr found)
      have along : Registers program registry module
          (program.registerStruct registry module depth nested (program.struct nested).name "" none)
          first (fun made => ∀ one ∈ made, one.Plain program ∧ program.LeadTo [field] one.id)
          ((∀ inner, some nested = some inner → program.Declared inner) ∧
            program.Granted (world.registry registry) depth)
          fun _ after made => (∀ one ∈ made, program.Leads registry after one) ∧
            Knows registry after nested := by
        refine registered.weaken (fun made headed one member => ⟨headed.plain one member, field,
          by simp, nested, held, headed.reaches one member⟩) ?_ ?_
        · rintro ⟨declared, granted⟩
          rw [same]
          exact ⟨declared nested rfl, granted⟩
        · rintro handle after made publishes headed ⟨first, leads⟩
          refine ⟨leads, ?_⟩
          obtain ⟨one, member, rfl⟩ := headed.mem (by rintro rfl; cases first)
          exact publishes.knows_entered created' member
      refine along.bind created' ?_
      rintro handle after made publishes shape ⟨leads, known⟩
      refine .pure (by rwa [List.append_nil]) ?_
      rw [List.append_nil]
      refine ⟨leads, ?_⟩
      rintro _ ⟨⟩
      exact known

/-- The structs that fields hold are known in the end. -/
theorem registers_fields {depth : Nat}
    (structs : program.RegistersStructs registry module depth) (owner : String)
    (fields : List (FieldDecl × Nat)) (world : World)
    (created : registry.number < world.registries.size) (counted : world.heap.Counted) :
    Registers program registry module
      (fields.forM (program.registerNested registry module depth owner)) world
      (fun made => ∀ one ∈ made, one.Plain program ∧ program.LeadTo fields one.id)
      ((∀ field ∈ fields, ∀ inner, field.1.type.nested? = some inner → program.Declared inner) ∧
        program.Granted (world.registry registry) depth)
      fun _ after made => (∀ one ∈ made, program.Leads registry after one) ∧
        ∀ field ∈ fields, ∀ inner, field.1.type.nested? = some inner →
          Knows registry after inner := by
  induction fields generalizing world with
  | nil => exact .pure (by simp) ⟨by simp, by simp⟩
  | cons field fields ih =>
    show Registers program registry module
      (program.registerNested registry module depth owner field >>= fun _ =>
        fields.forM (program.registerNested registry module depth owner)) world _ _ _
    have first := registers_registerNested structs owner field created counted
    refine (first.weaken (fun made shape one member => ?_) ?_ fun _ _ _ _ _ holds => holds).bind
      created fun _ after made publishes shape holds => ?_
    · obtain ⟨plain, among, inside, rest⟩ := shape one member
      rw [List.mem_singleton.mp inside] at rest
      exact ⟨plain, field, List.mem_cons_self, rest⟩
    · exact fun enough => ⟨enough.1 field List.mem_cons_self, enough.2⟩
    · have created' : registry.number < after.registries.size := by
        rwa [publishes.size_registries]
      refine (ih after created' (publishes.heap.counted counted)).weaken ?_ ?_ ?_
      · intro more shape' one member
        rcases List.mem_append.mp member with old | new
        · exact shape one old
        · obtain ⟨plain, among, inside, rest⟩ := shape' one new
          exact ⟨plain, among, List.mem_cons_of_mem _ inside, rest⟩
      · exact fun enough => ⟨fun other inside => enough.1 other (List.mem_cons_of_mem _ inside),
          publishes.granted created enough.2⟩
      · rintro _ last more publishes' shape' ⟨leads, known⟩
        refine ⟨fun one member inner nests => ?_, fun other inside inner held => ?_⟩
        · rcases List.mem_append.mp member with old | new
          · exact publishes'.knows created' (holds.1 one old inner nests)
          · exact leads one new inner nests
        · rcases List.mem_cons.mp inside with rfl | rest
          · exact publishes'.knows created' (holds.2 inner held)
          · exact known other rest inner held

/-- A struct is published before those that its fields hold, and not twice. -/
theorem registersStructs (program : Program) (registry : RegistryId) (module : Ref) (depth : Nat) :
    program.RegistersStructs registry module depth := by
  induction depth with
  | zero =>
    intro id name doc maker world created counted unknown
    refine ⟨[], [], .refl world, .refused (.inl rfl), .exhausted [], fun enough => ?_⟩
    have more := missing_pos enough.1 (not_not.mp unknown)
    exact absurd (Nat.lt_of_lt_of_le more enough.2.missing) (Nat.not_lt_zero _)
  | succ depth ih =>
    intro id name doc maker world created counted unknown
    have announced : ∀ first : World, first.registry registry = world.registry registry →
        registry.number < first.registries.size → first.heap.Counted →
          Registers program registry module (do
            if slotCapacity < (program.plan id maker).slots.length then
              Op.panic (.tooManySlots (program.struct id).name
                (program.plan id maker).slots.length slotCapacity)
            let type ← program.publishStruct registry module id name doc maker
            Op.note .debug
              s!"registered {(program.struct id).name} as {moduleName (← Op.heap) module}.{name}"
            (exportedFields (program.struct id)).forM
              (program.registerNested registry module depth (program.struct id).name)
            return type) first (program.Headed (depth + 1) id name doc maker)
            (program.Declared id ∧ program.Granted (world.registry registry) (depth + 1))
            fun handle after made => made.head?.map Publication.handle = some handle ∧
              ∀ one ∈ made, program.Leads registry after one := by
      intro first same created counted
      split
      · rename_i crowded
        exact ⟨[], [], .refl first, .refused (.inr crowded), .crowded [] _ _, fun _ => by simp⟩
      · refine ((registers_publishStruct True created counted
          (by rw [same]; exact not_not.mp unknown)).weaken ?_ (fun _ => trivial)
            fun _ _ _ _ _ holds => holds).bind created ?_
        · rintro _ ⟨handle, rfl⟩
          exact .begun handle [] (by simp)
        rintro handle second _ published _ rfl
        refine .look_bind (Op.run_heap second) (.note_bind ?_)
        generalize noted : second.note _ _ = third
        have publishes : program.Publishes registry module first third
            [⟨id, name, doc, maker, handle⟩] [⟨id, name, doc, maker, handle⟩] := by
          rw [← noted]
          exact { published with }
        have created' : registry.number < third.registries.size := by
          rwa [publishes.size_registries]
        have fields := registers_fields ih (program.struct id).name
          (exportedFields (program.struct id)) third created' (publishes.heap.counted counted)
        have shaped : ∀ more : List Publication, (∀ one ∈ more, one.Plain program ∧
            program.LeadTo (exportedFields (program.struct id)) one.id) →
              program.Headed (depth + 1) id name doc maker
                ([⟨id, name, doc, maker, handle⟩] ++ more) := by
          refine fun more shape => .begun handle more fun one member => ?_
          obtain ⟨plain, field, inside, inner, held, reaches⟩ := shape one member
          exact ⟨plain, .head ⟨field, inside, held⟩ reaches⟩
        refine (fields.weaken shaped ?_ fun _ _ _ _ _ holds => holds).bind created' ?_
        · rintro ⟨declared, granted⟩
          refine ⟨fun field inside inner held => granted.resolves id inner ⟨field, inside, held⟩,
            granted.resolves, ?_⟩
          rw [publishes.registry_after created, same]
          refine Nat.le_of_lt_succ (Nat.lt_of_lt_of_le ?_ granted.missing)
          refine missing_enroll_lt declared ?_ handle
          exact not_not.mp unknown
        · rintro _ last more publishes' shape ⟨leads, known⟩
          refine .pure (by rwa [List.append_nil]) ?_
          rw [List.append_nil]
          refine ⟨rfl, fun one member inner nests => ?_⟩
          rcases List.mem_cons.mp member with rfl | later
          · obtain ⟨field, inside, held⟩ := nests
            exact known field inside inner held
          · exact leads one later inner nests
    rw [registerStruct_succ]
    rcases maker with _ | code
    · exact announced world rfl created counted
    · exact .note_bind (announced _ rfl created counted)

end HostBridge.Program
