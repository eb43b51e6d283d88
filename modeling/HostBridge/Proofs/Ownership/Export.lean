import HostBridge.Bridge.Export
import HostBridge.Proofs.Ownership.Call
import HostBridge.Proofs.Ownership.Lifecycle

/-!
# Contracts of exporting

Types are made with slots that concern their struct, and their handles are given
to the registry.  Slot tables and capsules come to own what functions have
captured.  The contents of no object are changed but those of modules.
-/

namespace HostBridge.Program

open Op

variable {program : Program} {touch : Permission} {world : World}

/-! ## Types -/

theorem runs_orPanic {α : Type} {action : Op α} {misuse : Exception → Misuse}
    {taken : Multiset Ref} {given : α → Multiset Ref} {post : α → World → Prop}
    (runs : Runs program touch action world taken given post) :
    Runs program touch (orPanic action misuse) world taken given post := by
  intro frame sound
  have run := runs frame sound
  rw [orPanic, run_ofFunction]
  rcases ended : action.run world with ⟨result, after⟩
  rw [ended] at run
  cases result with
  | ok value => exact run
  | error fault => cases fault <;> exact run

theorem run_orPanic_of_ok {α : Type} {action : Op α} {value : α} {after : World}
    (ended : action.run world = (.ok value, after)) (misuse : Exception → Misuse) :
    (orPanic action misuse).run world = (.ok value, after) := by
  rw [orPanic, run_ofFunction, ended]

theorem run_orPanic_of_raised {α : Type} {action : Op α} {exception : Exception} {after : World}
    (failed : action.run world = (.error (.raised exception), after))
    (misuse : Exception → Misuse) :
    (orPanic action misuse).run world = (.error (.panicked (misuse exception)), after) := by
  rw [orPanic, run_ofFunction, failed]

/-- The heap type for a struct is a new object, which no registry knows.  It owns what its
constructor has captured. -/
theorem runs_createBridged {registry : RegistryId} {id : StructId} {name doc : String}
    {maker : Option Nat} (right : program.Constructs id maker) {captured : HostValue}
    (used : ∀ ref ∈ captured.references, ref.place < world.heap.size) :
    Runs program touch
      (Op.createType ((program.typeBody registry id name doc maker
        (program.plan id maker)).holding captured)) world 0 (fun type => {type})
      fun type after => after.heap.bridgedType? type =
          some ((bridgedType registry id name maker (program.plan id maker)).holding captured) ∧
        world.heap.size ≤ type.place ∧ ∀ other, after.registry other = world.registry other := by
  have plain : (Body.type ((program.typeBody registry id name doc maker
      (program.plan id maker)).holding captured)).Plain program := by
    intro bridged context
    exact ⟨registry, id, name, doc, maker, right, captured, rfl⟩
  refine .note_bind ?_
  generalize noted : world.note .debug _ = start
  have path : Path program touch start 0 _ (0 + {_}) := .create plain fun inner member => by
    rw [references_typeBody right] at member
    rw [← noted]
    exact used inner member
  rw [zero_add] at path
  refine .of_ok rfl path ⟨?_, ?_, fun other => ?_⟩
  · refine Heap.bridgedType?_eq_some.mpr ⟨_, _, Heap.cell?_push_next _ _, rfl, rfl⟩
  · show world.heap.size ≤ (start.retainAll _).heap.next.place
    rw [Path.heap_retainAll, ← noted]
    exact le_refl _
  · show (start.retainAll _).registry other = _
    rw [World.registry_retainAll, ← noted]
    rfl

/-- A new handle stays with the registry that its type names. -/
theorem path_enroll {registry : RegistryId} {id : StructId} {name : String} {maker : Option Nat}
    {plan : SlotPlan} {captured : HostValue} {type : Ref}
    (created : registry.number < world.registries.size)
    (shape : world.heap.bridgedType? type =
      some ((bridgedType registry id name maker plan).holding captured))
    (unknown : (world.registry registry).handle? id = none)
    (fresh : ∀ entry ∈ (world.registry registry).types, entry.2 ≠ type) :
    Path program touch world {type} (world.updateRegistry registry
      (.enroll type ((bridgedType registry id name maker plan).holding captured))) 0 :=
  .single (.enroll type created shape unknown fresh (zero_add _).symm)

theorem run_typeHandle? (world : World) (registry : RegistryId) (type : HostType) :
    (typeHandle? registry type).run world =
      (.ok (match type with
        | .struct id => (world.registry registry).handle? id
        | _ => none), world) := by
  cases type <;> rfl

/-- A constructor is accepted if it makes its type or, by a factory, a box of it. -/
theorem run_classify_of_proper {code : Nat} (proper : (program.maker code).Proper)
    (world : World) : (program.classify code).run world = (.ok (program.maker code), world) := by
  rw [classify]
  dsimp only
  rw [if_neg]
  · rfl
  · rintro ⟨style, plain, boxed⟩
    exact (proper style).elim plain boxed

theorem run_classify_of_improper {code : Nat} (improper : ¬(program.maker code).Proper)
    (world : World) : (program.classify code).run world =
      (.error (.panicked (.wrongProduct (program.maker code).name
        (program.typePath (program.maker code).subject)
        (program.typePath (program.maker code).result))), world) := by
  rw [classify]
  dsimp only
  rw [if_pos]
  · rfl
  · simpa [MakerDecl.Proper] using improper

/-- A slot more at the end of a table leaves the others where they are. -/
theorem continues_withSlot {contents : ModuleBody} {registry : RegistryId} {slots : List Slot}
    (state : contents.state = some (.slotTable registry slots)) (slot : Slot) :
    contents.Continues { contents with state := some (.slotTable registry (slots ++ [slot])) } := by
  refine ⟨rfl, fun old given => ?_⟩
  rw [state, Option.some.injEq] at given
  subst given
  refine ⟨_, rfl, _, rfl, fun id entry found => ⟨entry, ?_, .refl entry⟩⟩
  exact List.getElem?_append_left (List.getElem?_eq_some_iff.mp found).1 ▸ found

section

variable (modules : ∀ contents, touch (.module contents))

include modules

/-- A struct is registered along with those that its fields lead to.  The handle
stays with the registry. -/
theorem runs_registerStructBy {registry : RegistryId} {module : Ref}
    {enter : StructId → String → Op Ref} {id : StructId} {name doc : String} {maker : Option Nat}
    {captured : HostValue} (created : registry.number < world.registries.size)
    (right : program.Constructs id maker) (unknown : (world.registry registry).handle? id = none)
    (used : ∀ ref ∈ captured.references, ref.place < world.heap.size)
    (enters : ∀ (nested : StructId) (name : String) (later : World),
      registry.number < later.registries.size → (later.registry registry).handle? nested = none →
        Runs program touch (enter nested name) later 0 (fun _ => 0)
          fun handle after => handle.place < after.heap.size) :
    Runs program touch
      (program.registerStructBy registry module enter id name doc maker captured) world 0
      (fun _ => 0) fun handle after => handle.place < after.heap.size := by
  refine .assuming fun frame sound => ?_
  rcases maker with _ | code <;> rw [registerStructBy]
  case' some => refine .note_bind ?_
  all_goals
    dsimp only
    split
    · exact .of_error rfl
    · refine (runs_createBridged right ?_).bind ?_
      · exact used
      rintro type first leads ⟨shape, fresh, same⟩
      have createdFirst := Nat.lt_of_lt_of_le created leads.grows.registries
      have enrolling : Path program touch first {type} _ 0 := path_enroll createdFirst shape
        (by rw [same]; exact unknown) fun ⟨host, handle⟩ registered given => by
          rw [same] at registered
          subst given
          exact absurd (sound.used_of_handle registered) (Nat.not_lt.mpr fresh)
      refine .path_bind (run_change first _) enrolling fun enrolled => ?_
      obtain ⟨_, _, present, _⟩ := Heap.bridgedType?_eq_some.mp shape
      have inside := enrolled.used (Heap.place_lt_size present)
      refine (runs_orPanic (runs_addObject modules inside)).bind fun _ second leads' _ => ?_
      refine .heap_bind (.note_bind ?_)
      have createdSecond : registry.number < second.registries.size := by
        refine Nat.lt_of_lt_of_le ?_ leads'.grows.registries
        rwa [World.size_registries_updateRegistry]
      refine (Runs.forM fun field _ middle between => ?_).bind fun _ last leads'' _ =>
        .pure rfl (leads''.used (leads'.used inside))
      split
      · exact .pure rfl trivial
      · refine .look_bind rfl ?_
        split
        · exact .pure rfl trivial
        · rename_i absent
          refine .note_bind ((enters _ _ _ ?_ ?_).bind fun _ _ _ _ => .pure rfl trivial)
          · exact Nat.lt_of_lt_of_le createdSecond between.grows.registries
          · exact absent

theorem runs_registerStruct {registry : RegistryId} {module : Ref} (depth : Nat) :
    ∀ (id : StructId) (name doc : String) (maker : Option Nat) (world : World),
      registry.number < world.registries.size → program.Constructs id maker →
        (world.registry registry).handle? id = none → Runs program touch
          (program.registerStruct registry module depth id name doc maker) world 0 (fun _ => 0)
          fun handle after => handle.place < after.heap.size := by
  induction depth with
  | zero => exact fun _ _ _ _ _ _ _ _ => .throw _
  | succ depth ih =>
    intro id name doc maker world created right unknown
    refine runs_registerStructBy modules created right unknown (fun _ member => by cases member) ?_
    exact fun nested name later created unknown => ih nested name "" none later created
      (fun code given => by cases given) unknown

omit modules in
/-- A type is registered, or its handle is found. -/
theorem runs_registerBy {registry : RegistryId} {type : HostType} {enter : StructId → Op Ref}
    (enters : ∀ id, type.unboxed = .struct id → (world.registry registry).handle? id = none →
      Runs program touch (enter id) world 0 (fun _ => 0)
        fun handle after => handle.place < after.heap.size) :
    Runs program touch (program.registerBy registry type enter) world 0
      (fun ref => {ref}) fun _ _ => True := by
  refine .assuming fun frame sound => ?_
  rw [registerBy]
  split
  · rename_i id same
    refine .look_bind rfl ?_
    split
    · rename_i handle found
      exact runs_retainUsed (sound.used_of_handle (Registry.mem_types_of_handle? found))
    · rename_i unknown
      exact (enters id same unknown).bind fun handle after _ used => runs_retainUsed used
  · exact .panic _

theorem runs_register {registry : RegistryId} {type : HostType} {module : Ref}
    {name doc : String} {maker : Option Nat} (created : registry.number < world.registries.size)
    (right : ∀ id, type.unboxed = .struct id → program.Constructs id maker) :
    Runs program touch (program.register registry type module name doc maker) world 0
      (fun ref => {ref}) fun _ _ => True :=
  runs_registerBy fun id same unknown =>
    runs_registerStruct modules _ id name doc maker world created (right id same) unknown

theorem runs_registerType {bridge : Bridge} {type : HostType} {module : Ref}
    {name doc : String} (created : bridge.registry.number < world.registries.size) :
    Runs program touch (program.registerType bridge type module name doc) world 0
      (fun ref => {ref}) fun _ _ => True :=
  runs_register modules created fun _ _ code given => by cases given

omit modules in
/-- A type is registered with a constructor that is accepted. -/
theorem runs_registerMade {registry : RegistryId} {code : Nat} {enter : StructId → Op Ref}
    (enters : ∀ id, program.Constructs id (some code) →
      (world.registry registry).handle? id = none →
        Runs program touch (enter id) world 0 (fun _ => 0)
          fun handle after => handle.place < after.heap.size) :
    Runs program touch (program.registerMade registry code enter) world 0
      (fun ref => {ref}) fun _ _ => True := by
  refine .assuming fun frame sound => ?_
  have fresh : Runs program touch
      (do
        let _ ← program.classify code
        program.registerBy registry (program.maker code).subject enter)
      world 0 (fun ref => {ref}) fun _ _ => True := by
    by_cases proper : (program.maker code).Proper
    · refine .look_bind (run_classify_of_proper proper world)
        (runs_registerBy fun id same unknown => enters id (fun code' given => ?_) unknown)
      cases given
      exact ⟨same, proper⟩
    · exact .stop_bind (run_classify_of_improper proper world)
  refine .look_bind (run_typeHandle? world registry _) ?_
  split
  · rename_i handle found
    split at found
    · exact runs_retainUsed (sound.used_of_handle (Registry.mem_types_of_handle? found))
    · cases found
  · exact fresh

theorem runs_registerTypeWith {bridge : Bridge} {code : Nat} {module : Ref} {name doc : String}
    (created : bridge.registry.number < world.registries.size) :
    Runs program touch (program.registerTypeWith bridge code module name doc) world 0
      (fun ref => {ref}) fun _ _ => True :=
  runs_registerMade fun id right unknown =>
    runs_registerStruct modules _ id name doc (some code) world created right unknown

theorem runs_registerTypeHolding {bridge : Bridge} {item : Export} {module : Ref}
    {name doc : String} (created : bridge.registry.number < world.registries.size)
    (used : ∀ ref ∈ item.captured.references, ref.place < world.heap.size) :
    Runs program touch (program.registerTypeHolding bridge item module name doc) world 0
      (fun ref => {ref}) fun _ _ => True :=
  runs_registerMade fun id right unknown =>
    runs_registerStructBy modules created right unknown used fun nested name later created unknown =>
      runs_registerStruct modules _ nested name "" none later created
        (fun code given => by cases given) unknown

/-! ## Functions -/

theorem runs_slotTable {registry : RegistryId} {module : Ref} :
    Runs program touch (slotTable registry module) world 0 (fun _ => 0) fun _ _ => True := by
  refine .heap_bind ?_
  split
  · exact .pure rfl trivial
  · exact .raise _
  · have none : ∀ inner ∈ (Payload.slotTable registry []).references,
        inner.place < world.heap.size := fun inner member => by cases member
    exact (runs_setModuleState modules none).bind fun _ _ _ _ => .pure rfl trivial

/-- The module with one more slot in its table. -/
def withSlot (world : World) (module : Ref) (slot : Slot) : World :=
  match world.heap.module? module with
  | some contents =>
    match contents.state with
    | some (.slotTable registry slots) =>
      world.replace module (.module
        { contents with state := some (.slotTable registry (slots ++ [slot])) })
    | _ => world
  | none => world

theorem path_withSlot {held frame : Multiset Ref} (sound : world.Sound program frame)
    {module : Ref} {slot : Slot} (used : ∀ ref ∈ slot.references, ref.place < world.heap.size) :
    Path program touch world held (withSlot world module slot) held := by
  unfold withSlot
  split
  · rename_i contents reading
    have body := Heap.module?_eq_some reading
    obtain ⟨cell, there, same⟩ := Heap.exists_cell_of_body body (by simp)
    split
    · rename_i registry slots state
      refine .replace there (by rw [same]; exact modules _)
        (by rw [same]; exact .module (continues_withSlot state slot)) ?_
      intro inner member
      rcases List.mem_append.mp member with global | owned
      · refine sound.used_of_body module ?_
        rw [body]
        exact List.mem_append_left _ global
      · obtain ⟨entry, among, inside⟩ := List.mem_flatMap.mp owned
        rcases List.mem_append.mp among with old | new
        · refine sound.used_of_body module ?_
          rw [body]
          refine List.mem_append_right _ ?_
          rw [state]
          exact List.mem_flatMap.mpr ⟨entry, old, inside⟩
        · rw [List.mem_singleton.mp new] at inside
          exact used inner inside
    · exact .refl _ _
  · exact .refl _ _

theorem runs_registerFunction {bridge : Bridge} {module : Ref} {item : Export}
    {name doc : String} (used : ∀ ref ∈ item.captured.references, ref.place < world.heap.size) :
    Runs program touch (program.registerFunction bridge module item name doc) world 0
      (fun ref => {ref}) fun _ _ => True := by
  refine .heap_bind ?_
  refine (runs_orPanic (runs_slotTable modules)).bind fun slots first leads _ => .heap_bind ?_
  dsimp only
  split
  · exact .of_error rfl
  · refine (runs_orPanic (runs_addFunction modules _)).bind fun function second leads' _ => ?_
    refine .assuming fun frame sound => ?_
    refine .path_bind (run_change second _)
      (path_withSlot modules sound ((leads.trans leads').usedAll used)) fun _ => ?_
    exact .heap_bind (.note_bind (.pure rfl trivial))

theorem runs_exportFunction {bridge : Bridge} {item : Export} {name doc : String}
    (used : ∀ ref ∈ item.captured.references, ref.place < world.heap.size) :
    Runs program touch (program.createFunction bridge item name doc) world 0
      (fun ref => {ref}) fun _ _ => True := by
  refine .look_bind (run_interpreter world _) (.heap_bind ?_)
  dsimp only
  generalize slotted : program.functionSlot 0 item name doc
    (world.heap.globalNames (world.interpreter bridge.interpreter).main) = slot
  have captured : slot.references = item.captured.references := by
    rw [← slotted]
    rfl
  have plain : (Body.capsule slot.exposed (.adHoc bridge.registry slot)).Plain program := trivial
  refine (runs_create plain ?_).bind fun capsule first _ _ => ?_
  · intro ref member
    refine used ref ?_
    rw [← captured]
    exact member
  have bound : Runs program touch
      ((Op.createFunction (program.definition .adHoc slot) capsule).always (·.release capsule))
      first {capsule} (fun function => {function}) fun _ _ => True := by
    refine .assuming fun frame sound => ?_
    have making : Runs program touch (Op.createFunction (program.definition .adHoc slot) capsule)
        first 0 (fun function => {function}) fun _ _ => True :=
      Op.runs_createFunction (sound.used_of_held (by simp))
    have run : Runs program touch
        ((Op.createFunction (program.definition .adHoc slot) capsule).always (·.release capsule))
        first (0 + {capsule}) (fun function => {function}) fun _ _ => True :=
      making.always (fun final => path_release final capsule) fun _ _ _ _ _ => trivial
    rwa [zero_add] at run
  refine bound.bind fun function second _ _ => .assuming fun frame sound => ?_
  have adding : Runs program touch
      (Op.addObject (world.interpreter bridge.interpreter).main slot.exposed function) second 0
      (fun _ => 0) fun _ _ => True := runs_addObject modules (sound.used_of_held (by simp))
  have guarded : Runs program touch
      (orPanic (Op.addObject (world.interpreter bridge.interpreter).main slot.exposed function)
        (.functionNotPublished slot.exposed)) second 0 (fun _ => 0) fun _ _ => True :=
    runs_orPanic adding
  have published := guarded.undoing fun final => path_release final function
  rw [zero_add] at published
  exact published.bind fun _ third _ _ => .note_bind (.pure rfl trivial)

end

/-! ## Values -/

/-- The handle of a registered type is kept by its registry. -/
theorem runs_typeOf {bridge : Bridge} {type : HostType} :
    Runs program touch (typeOf bridge type) world 0 (fun handle => handle.toList)
      fun _ _ => True := by
  refine .assuming fun frame sound => .look_bind (run_typeHandle? world bridge.registry type) ?_
  refine (runs_retainOption fun handle found => ?_).weaken fun _ _ _ _ => trivial
  split at found
  · exact sound.used_of_handle (Registry.mem_types_of_handle? found)
  · cases found

theorem runs_toObject {bridge : Bridge} {type : HostType} {value : HostValue}
    (fit : value.fits program type = true) :
    Runs program touch (program.toObject bridge type value) world value.references
      (fun ref => {ref}) fun _ _ => True :=
  runs_encodeOwned fit

/-- What a client comes to own with the outcome of a conversion. -/
def readReferences {ε : Type} : Except ε HostValue → List Ref
  | .ok value => value.references
  | .error _ => []

theorem runs_fromObject (honest : program.Honest) {bridge : Bridge} {type : HostType} {ref : Ref}
    (used : ref.place < world.heap.size) :
    Runs program touch (program.fromObject bridge type ref) world 0
      (fun result => readReferences result)
      fun result _ => ∀ value, result = .ok value → value.fits program type = true := by
  refine .assuming fun frame sound => .heap_bind ?_
  split
  · rename_i value read
    have valid := Decode.valid_fresh honest.founded sound used read
    refine .adopt_bind valid.used fun adopted after _ fits => .pure (zero_add _) ?_
    intro value' same
    cases same
    rw [fits]
    exact valid.fit
  · refine .pure rfl ?_
    intro value same
    cases same
  · exact .panic _
  · exact .throw _

theorem runs_zeroValue (honest : program.Honest) (type : HostType) :
    Runs program touch (program.zeroValue type) world 0 (fun value => value.references)
      fun value _ => value.fits program type = true := by
  refine .assuming fun frame sound => ?_
  have zero := program.valid_zero honest.founded sound.grounded.large type
  have made : Op.Makes program touch (adopt (program.zero type)) world [] HostValue.references
      fun adopted _ => ∀ type', adopted.fits program type' = (program.zero type).fits program type' :=
    makes_adopt zero.used
  refine made.runs.weaken fun value _ _ holds => ?_
  rw [holds.2]
  exact zero.fit

theorem runs_readResult (honest : program.Honest) {bridge : Bridge} {type : HostType} {ref : Ref} :
    Runs program touch (program.readResult bridge type ref) world {ref}
      (fun result => readReferences result) fun _ _ => True := by
  refine .assuming fun frame sound => ?_
  have reading : Runs program touch (program.fromObject bridge type ref) world 0
      (fun result => readReferences result)
      fun result _ => ∀ value, result = .ok value → value.fits program type = true :=
    runs_fromObject honest (sound.used_of_held (by simp))
  have run : Runs program touch ((program.fromObject bridge type ref).always (·.release ref)) world
      (0 + {ref}) (fun result => readReferences result) fun _ _ => True :=
    reading.always (fun final => path_release final ref) fun _ _ _ _ _ => trivial
  rw [zero_add] at run
  refine run.bind fun result after _ _ => ?_
  cases result with
  | ok value => exact .pure rfl trivial
  | error cause => exact .pure rfl trivial

theorem runs_callAs (honest : program.Honest) (confined : program.Confined touch) {bridge : Bridge}
    {type : HostType} {callee : Ref}
    {positional : List Ref} (calleeUsed : callee.place < world.heap.size)
    (used : ∀ ref ∈ positional, ref.place < world.heap.size) :
    Runs program touch (program.callAs bridge type callee positional) world 0
      (fun result => readReferences result) fun _ _ => True := by
  intro frame sound
  have calling : Runs program touch (program.call callee positional none) world 0
      (fun ref => {ref}) fun _ _ => True :=
    runs_call honest confined calleeUsed used fun ref member => by cases member
  have run := calling frame sound
  rw [callAs, run_ofFunction]
  rcases ended : (program.call callee positional none).run world with ⟨result, after⟩
  rw [ended] at run
  cases result with
  | error fault =>
    cases fault with
    | raised exception => exact ⟨run, trivial⟩
    | _ => exact run
  | ok ref =>
    have reading : Runs program touch (program.readResult bridge type ref) after {ref}
        (fun result => readReferences result) fun _ _ => True := runs_readResult honest
    have last := reading frame ((run.1.frame frame).sound sound)
    dsimp only
    split at last
    · exact ⟨run.1.trans last.1, trivial⟩
    · exact run.1.trans last

/-- The value behind a wrapper of a type is one of that type. -/
theorem runs_updateBehind (free : ∀ body, touch body) {bridge : Bridge} {type : HostType}
    {ref : Ref}
    {update : HostValue → HostValue}
    (right : ∀ value, value.Valid program world.heap type →
      (update value).Valid program world.heap type) :
    Runs program touch (updateBehind bridge type ref update) world 0 (fun _ => 0)
      fun _ _ => True := by
  refine .assuming fun frame sound => ?_
  unfold updateBehind valueBehind
  rw [bind_assoc]
  refine .heap_bind ?_
  cases wrapped : world.heap.wrapped? ref with
  | none => exact .look_bind rfl (.pure rfl trivial)
  | some parts =>
    obtain ⟨value, bridged⟩ := parts
    dsimp only
    split
    · rename_i own
      have behind := Decode.valid_wrapped? sound wrapped
      rw [← own.2] at behind
      obtain ⟨content, wrapper⟩ := Heap.wrapper?_of_wrapped? wrapped
      refine .look_bind rfl (.adopt_bind (right value behind).used fun adopted after leads fits => ?_)
      rw [zero_add]
      refine (runs_exchange (fun _ _ _ => free _) fun content' bridged' wrapper' => ?_).bind
        fun _ _ _ _ => .pure rfl trivial
      obtain ⟨rfl, _⟩ := leads.same_wrapper wrapper wrapper'
      refine ⟨_, typeAt?_nil _, ?_⟩
      rw [fits, ← own.2]
      exact (right value behind).fit
    · exact .look_bind rfl (.pure rfl trivial)

/-! ## Bridges -/

/-- A new registry, with which nothing is registered, changes no reference. -/
theorem path_pushRegistry (world : World) {entry : Registry} (bridged : entry.bridged = [])
    (types : entry.types = []) (roster : entry.roster = .empty) (held : Multiset Ref) :
    Path program touch world held { world with registries := world.registries.push entry } held := by
  have looked : ∀ id : RegistryId,
      ({ world with registries := world.registries.push entry } : World).registry id =
          world.registry id ∨
        ({ world with registries := world.registries.push entry } : World).registry id = entry ∧
          world.registry id = .empty := by
    intro id
    rcases Nat.lt_trichotomy id.number world.registries.size with known | new | beyond
    · left
      rw [World.registry, World.registry, Array.getElem?_push_lt known,
        Array.getElem?_eq_getElem known]
    · right
      constructor
      · simp [World.registry, new]
      · simp [World.registry, new]
    · left
      have outside : (world.registries.push entry).size ≤ id.number := by
        rw [Array.size_push]
        exact beyond
      rw [World.registry, World.registry, Array.getElem?_eq_none outside,
        Array.getElem?_eq_none (Nat.le_of_lt beyond)]
  refine .single (.settle ⟨rfl, fun id => ?_, fun id => ?_, fun id => ?_, fun id => ?_, by simp,
    le_refl _⟩ ?_)
  · rcases looked id with same | ⟨made, bare⟩
    · rw [same]
    · rw [made, bare, bridged]
      rfl
  · rcases looked id with same | ⟨made, bare⟩
    · rw [same]
    · rw [made, bare, types]
      rfl
  · rcases looked id with same | ⟨made, bare⟩
    · rw [same]
    · rw [made, bare, roster]
      rfl
  · rcases looked id with same | ⟨_, bare⟩
    · rw [same]
      exact fun alive => alive
    · rw [bare]
      exact fun alive => absurd alive (Nat.lt_irrefl 0)
  · simp [World.claims, Registry.handles, types]

theorem runs_connect {id : InterpreterId} (alive : 0 < (world.interpreter id).owners) :
    Runs program touch (connect id) world 0 (fun _ => 0) fun _ _ => True := by
  have finish : ∀ (after : World) (registry : RegistryId), 0 < (after.interpreter id).owners →
      Runs program touch (do Op.retainInterpreter id; return ⟨id, registry⟩ : Op Bridge) after 0
        (fun _ => 0) fun _ _ => True := fun after registry alive =>
    (runs_retainInterpreter alive).bind fun _ _ _ _ => .pure rfl trivial
  refine .look_bind (run_interpreter world id) ?_
  split
  · rename_i registry known
    refine .path_bind (run_change world _)
      (World.path_registryOwners registry (fun _ => rfl) (fun _ => rfl) (fun _ => rfl)
        fun _ => Nat.succ_pos _) fun _ => ?_
    exact finish _ registry alive
  · refine .world_bind (.path_bind (run_change world _) (path_pushRegistry world rfl rfl rfl 0)
      fun _ => ?_)
    generalize made : ({ world with
      registries := world.registries.push { Registry.empty with owners := 2 } } : World) = first
    have created : id.number < first.interpreters.size := by
      rw [← made]
      exact World.created_of_owners alive
    have still : 0 < (first.interpreter id).owners := by
      rw [← made]
      exact alive
    generalize RegistryId.mk world.registries.size = registry
    have extended : World.Keeping id first (first.updateInterpreter id fun entry =>
        { entry with extensions := { entry.extensions with bridge := some registry } }) :=
      .of_change (fun _ => rfl) (fun _ => rfl) created
    refine .path_bind (run_change first _) (.updateInterpreter_same fun _ => rfl) fun _ => ?_
    generalize first.updateInterpreter id _ = second at *
    have hooked : World.Keeping id second (second.updateInterpreter id fun entry =>
        { entry with hooks := entry.hooks ++ [.clearRegistry registry] }) :=
      .of_change (fun _ => rfl) (fun _ => rfl) (by rwa [extended.size])
    refine .path_bind (run_change second _) (.updateInterpreter_same fun _ => rfl) fun _ => ?_
    refine .note_bind (finish _ registry ?_)
    show 0 < ((second.updateInterpreter id _).interpreter id).owners
    rwa [hooked.owners, extended.owners]

/-- A bridge takes its handle to the interpreter along, and one to the registry. -/
theorem runs_disconnect {bridge : Bridge}
    (alive : 0 < (world.interpreter bridge.interpreter).owners)
    (ends : (world.interpreter bridge.interpreter).owners ≤ 1 →
      touch.Ends world bridge.interpreter ((disconnect bridge).run world).2)
    (dropped : ∀ registry, ((disconnect bridge).run world).2.registryAlive registry = false →
      touch.rosters registry) :
    Runs program touch (disconnect bridge) world 0 (fun _ => 0) fun _ _ => True := by
  rw [disconnect, run_always] at ends dropped
  have dead : ∀ registry,
      ((Op.dropInterpreter bridge.interpreter).run world).2.registryAlive registry = false →
        touch.rosters registry := by
    intro registry gone
    have fewer := World.owners_dropRegistry_le
      ((Op.dropInterpreter bridge.interpreter).run world).2 bridge.registry registry
    have none := Nat.eq_zero_of_not_pos (of_decide_eq_false gone)
    rw [none] at fewer
    exact dropped registry (decide_eq_false (Nat.not_lt_of_le fewer))
  have dropping : Runs program touch (Op.dropInterpreter bridge.interpreter) world 0 (fun _ => 0)
      fun _ _ => True :=
    runs_dropInterpreter alive fun last => ⟨(ends last).modules, (ends last).cleared, dead⟩
  intro frame sound
  have run := dropping frame sound
  rw [disconnect, run_always]
  rcases ended : (Op.dropInterpreter bridge.interpreter).run world with ⟨result, after⟩
  rw [ended] at run dropped
  have last : Path program touch after 0 (after.dropRegistry bridge.registry) 0 :=
    World.path_dropRegistry after (dropped bridge.registry)
  cases result with
  | ok value => exact ⟨run.1.trans last, trivial⟩
  | error fault => exact run.trans last

theorem runs_createBridgeModule (modules : ∀ contents, touch (.module contents)) {bridge : Bridge}
    {name doc : String} (alive : 0 < (world.interpreter bridge.interpreter).owners) :
    Runs program touch (createModule bridge name doc) world 0 (fun ref => {ref})
      fun _ _ => True := by
  generalize made : world.place (.module ⟨name, doc, [], none⟩) = pair
  obtain ⟨module, first⟩ := pair
  have ran : (Op.createModule name doc).run world = (.ok module, first) := congrArg
    (fun pair : Ref × World => ((.ok pair.1, pair.2) : Except Fault Ref × World)) made
  have plain : (Body.module ⟨name, doc, [], none⟩).Plain program := trivial
  have placed : Path program touch world (0 + (Body.module ⟨name, doc, [], none⟩).references)
      (world.place (.module ⟨name, doc, [], none⟩)).2
      (0 + {(world.place (.module ⟨name, doc, [], none⟩)).1}) := .place plain
  rw [made, zero_add] at placed
  have still : 0 < (first.interpreter bridge.interpreter).owners := by
    rw [show first = (world.place (.module ⟨name, doc, [], none⟩)).2 by rw [made]]
    exact alive
  refine .path_bind ran placed fun _ => .assuming fun frame sound => ?_
  have settled : Runs program touch (do
      Op.addModule bridge.interpreter module
      let _ ← slotTable bridge.registry module
      Op.note .debug s!"created module '{name}'") first 0 (fun _ => 0) fun _ _ => True := by
    refine (runs_addModule still (sound.used_of_held (by simp))).bind fun _ second _ _ => ?_
    exact (runs_slotTable modules).bind fun _ third _ _ => .of_ok rfl (path_note _ _) trivial
  have kept := settled.undoing fun final => path_release final module
  rw [zero_add] at kept ⊢
  exact kept.bind fun _ final _ _ => .pure rfl trivial

end HostBridge.Program
