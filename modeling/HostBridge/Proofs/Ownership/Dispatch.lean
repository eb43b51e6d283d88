import HostBridge.Proofs.Ownership.Invoke

/-!
# Contracts of entry points

The entry points of the bridge look up what they are to run, a slot of a type or
of a module, or the one in a capsule, and check that the registry that it came
from is alive.
-/

namespace HostBridge

variable {program : Program} {touch : Permission} {world : World}

/-! ## Looking things up -/

namespace Op.Runs

variable {α : Type} {taken : Multiset Ref} {given : α → Multiset Ref} {post : α → World → Prop}

theorem stop_bind {β : Type} {action : Op β} {next : β → Op α} {fault : Fault}
    (ended : action.run world = (.error fault, world)) :
    Runs program touch (action >>= next) world 0 given post :=
  .of_error (Operation.run_bind_of_error ended next)

theorem liveRegistry_bind {id : RegistryId} {next : RegistryId → Op α}
    (later : Runs program touch (next id) world 0 given post) :
    Runs program touch (liveRegistry id >>= next) world 0 given post := by
  by_cases alive : world.registryAlive id = true
  · refine .look_bind ?_ later
    rw [liveRegistry, Operation.run_bind_of_ok (run_world world), if_pos alive]
    rfl
  · have ended : (liveRegistry id).run world =
        (.error (.raised .registryReleased), world) := by
      rw [liveRegistry, Operation.run_bind_of_ok (run_world world), if_neg alive]
      rfl
    exact .stop_bind ended

theorem typeSlot_bind {bridged : BridgedType} {id : Nat} {next : Slot → Op α}
    (later : ∀ slot, bridged.slots[id]? = some slot →
      Runs program touch (next slot) world 0 given post) :
    Runs program touch (Program.typeSlot bridged id >>= next) world 0 given post := by
  unfold Program.typeSlot
  split
  · rename_i slot found
    exact .look_bind rfl (later slot found)
  · exact .of_error rfl

theorem wrapperParts_bind {ref : Ref} {next : Held × BridgedType × RegistryId → Op α}
    (later : ∀ content bridged, world.heap.wrapper? ref = some (content, bridged) →
      Runs program touch (next (content, bridged, bridged.registry)) world 0 given post) :
    Runs program touch (Program.wrapperParts ref >>= next) world 0 given post := by
  unfold Program.wrapperParts
  rw [bind_assoc]
  refine .heap_bind ?_
  cases wrapper : world.heap.wrapper? ref with
  | none => exact .of_error rfl
  | some parts =>
    obtain ⟨content, bridged⟩ := parts
    dsimp only
    rw [bind_assoc]
    exact .liveRegistry_bind (.look_bind rfl (later content bridged wrapper))

end Op.Runs

namespace Program

open Op

/-- A slot of a type concerns the struct of the type. -/
theorem concerns_of_slot {held : Multiset Ref} (sound : world.Sound program held) {ref : Ref}
    {content : Held} {bridged : BridgedType}
    (wrapper : world.heap.wrapper? ref = some (content, bridged)) {id : Nat} {slot : Slot}
    (found : bridged.slots[id]? = some slot) : slot.role.Concerns program bridged.host := by
  obtain ⟨_, type, _, _, _, shape⟩ := Heap.wrapper?_eq_some.mp wrapper
  exact sound.wired.sound_of_bridgedType? shape slot (List.mem_of_getElem? found)

/-- A slot of the type of a wrapper may be called on the wrapper. -/
theorem suits_wrapper {held : Multiset Ref} (sound : world.Sound program held) {ref : Ref}
    {content : Held} {bridged : BridgedType}
    (wrapper : world.heap.wrapper? ref = some (content, bridged)) {id : Nat} {slot : Slot}
    (found : bridged.slots[id]? = some slot) : Suits world slot (.wrapper ref) := by
  have concerns := concerns_of_slot sound wrapper found
  constructor
  · intro owner index ref' content' bridged' role site wrapper'
    cases site
    rw [wrapper, Option.some.injEq, Prod.mk.injEq] at wrapper'
    rw [role] at concerns
    rw [← wrapper'.2]
    exact concerns.1.symm
  · intro inner member
    unfold Slot.references at member
    split at member
    · rename_i role
      rw [role] at concerns
      cases concerns
    · cases member

theorem suits_holder {slot : Slot} {ref : Ref}
    (used : ∀ inner ∈ slot.references, inner.place < world.heap.size) :
    Suits world slot (.holder ref) :=
  ⟨fun _ _ _ _ _ _ site => (by cases site), used⟩

/-- What a function in a slot table has captured has places. -/
theorem used_of_slotTable {held : Multiset Ref} (sound : world.Sound program held) {ref : Ref}
    {registry : RegistryId} {slots : List Slot}
    (state : world.heap.moduleState? ref = some (.slotTable registry slots)) {slot : Slot}
    (among : slot ∈ slots) {inner : Ref} (member : inner ∈ slot.references) :
    inner.place < world.heap.size := by
  obtain ⟨contents, reading, same⟩ := Option.bind_eq_some_iff.mp state
  refine sound.used_of_body ref ?_
  rw [Heap.module?_eq_some reading]
  refine List.mem_append_right _ ?_
  rw [same]
  exact List.mem_flatMap.mpr ⟨slot, among, member⟩

theorem runs_dispatch (honest : program.Honest) (free : ∀ body, touch body) {callback : Callback}
    (calls : Callback.Counts program touch callback) {self : Ref} {id : Nat}
    {positional : List Ref} {keywords : Option Ref}
    (used : ∀ ref ∈ positional, ref.place < world.heap.size)
    (keywordsUsed : ∀ ref ∈ keywords, ref.place < world.heap.size) :
    Runs program touch (program.dispatch callback self id positional keywords) world 0
      (fun ref => {ref}) fun _ _ => True := by
  refine .assuming fun frame sound => .heap_bind ?_
  cases wrapper : world.heap.wrapper? self with
  | some parts =>
    obtain ⟨content, bridged⟩ := parts
    refine .liveRegistry_bind (.typeSlot_bind fun slot found => .look_bind rfl (.note_bind ?_))
    have suits := suits_wrapper sound wrapper found
    exact runs_invoke honest free calls ⟨suits.method, suits.captured⟩ used keywordsUsed
  | none =>
    cases state : world.heap.moduleState? self with
    | none => exact .raise _
    | some payload =>
      cases payload with
      | slotTable registry slots =>
        refine .liveRegistry_bind ?_
        cases found : slots[id]? with
        | none => exact .raise _
        | some slot =>
          refine .look_bind rfl (.note_bind ?_)
          have places : ∀ inner ∈ slot.references, inner.place < world.heap.size :=
            fun inner member => used_of_slotTable sound state (List.mem_of_getElem? found) member
          exact runs_invoke honest free calls ⟨(suits_holder places).method, places⟩ used keywordsUsed
      | _ => exact .raise _

theorem runs_dispatchAdHoc (honest : program.Honest) (free : ∀ body, touch body)
    {callback : Callback}
    (calls : Callback.Counts program touch callback) {self : Ref}
    {positional : List Ref} {keywords : Option Ref}
    (used : ∀ ref ∈ positional, ref.place < world.heap.size)
    (keywordsUsed : ∀ ref ∈ keywords, ref.place < world.heap.size) :
    Runs program touch (program.dispatchAdHoc callback self positional keywords) world 0
      (fun ref => {ref}) fun _ _ => True := by
  refine .assuming fun frame sound => .heap_bind ?_
  cases payload : world.heap.capsule? self with
  | none => exact .raise _
  | some content =>
    cases content with
    | adHoc registry slot =>
      refine .liveRegistry_bind (runs_invoke honest free calls (suits_holder ?_) used keywordsUsed)
      intro inner member
      obtain ⟨name, reading⟩ := Heap.exists_capsule payload
      refine sound.used_of_body self ?_
      rw [reading]
      exact member
    | _ => exact .raise _

/-! ## New instances -/

theorem runs_allocateWrapper (honest : program.Honest) (type : Ref) :
    Runs program touch (program.allocateWrapper type) world 0 (fun ref => {ref})
      fun _ _ => True := by
  refine .assuming fun frame sound => .heap_bind ?_
  cases shape : world.heap.bridgedType? type with
  | none => exact .raise _
  | some bridged =>
    refine .liveRegistry_bind ?_
    have zero := program.valid_zero honest.founded sound.grounded.large (.struct bridged.host)
    have made : Makes program touch
        (wrapCopy bridged.registry type (program.zero (.struct bridged.host))) world []
        (fun ref => [ref]) _ := makes_wrapCopy shape rfl zero.fit zero.used
    exact made.runs.weaken fun _ _ _ _ => trivial

/-- What a factory has produced is a value of its type. -/
theorem fits_produced {maker : MakerDecl} {host : StructId} {result : HostValue}
    (proper : maker.Proper) (style : maker.style = .factory)
    (subject : maker.subject = .struct host)
    (fit : result.fits program maker.result = true) :
    (produced maker result).fits program (.struct host) = true := by
  rcases proper style with plain | boxed
  · rw [plain, subject] at fit
    obtain ⟨fields, rfl, _⟩ := HostValue.fits_struct_iff.mp fit
    exact fit
  · rw [boxed, subject] at fit
    cases result with
    | boxed inner =>
      rw [produced, if_pos boxed]
      exact fit
    | _ => cases fit

/-- The box around what a factory has produced holds no references. -/
theorem references_produced (maker : MakerDecl) (result : HostValue) :
    (produced maker result).references = result.references := by
  unfold produced
  split
  · split <;> rfl
  · rfl

theorem runs_construct (honest : program.Honest) (free : ∀ body, touch body) {callback : Callback}
    (calls : Callback.Counts program touch callback) {self : Ref}
    {positional : List Ref} {keywords : Option Ref}
    (used : ∀ ref ∈ positional, ref.place < world.heap.size)
    (keywordsUsed : ∀ ref ∈ keywords, ref.place < world.heap.size) :
    Runs program touch (program.construct callback self positional keywords) world 0
      (fun _ => 0) fun _ _ => True := by
  refine .assuming fun frame sound => .wrapperParts_bind fun content bridged wrapper => ?_
  dsimp only
  cases bridged.maker with
  | none => exact .raise _
  | some id =>
    refine .typeSlot_bind fun slot found => ?_
    have concerns := concerns_of_slot sound wrapper found
    cases role : slot.role with
    | construct code =>
      rw [role] at concerns
      obtain ⟨subject, proper⟩ := concerns
      refine .heap_bind (.ofExcept_bind fun values read => ?_)
      have valid := valid_arguments honest.founded sound used keywordsUsed read
      rw [slotParameters, role] at valid
      cases wrapped : world.heap.wrapped? self with
      | none => exact .raise _
      | some parts =>
        obtain ⟨fresh, bridged'⟩ := parts
        dsimp only
        cases style : (program.maker code).style with
        | receiver =>
          refine .adoptAll_bind valid fun adopted after more leads fit => ?_
          have behind : fresh.Valid program world.heap (.struct bridged.host) := by
            obtain ⟨content', wrapper'⟩ := Heap.wrapper?_of_wrapped? wrapped
            rw [wrapper, Option.some.injEq, Prod.mk.injEq] at wrapper'
            rw [wrapper'.2]
            exact Decode.valid_wrapped? sound wrapped
          have stores : Stores program touch
              (fun value => value.fits program (.struct bridged.host) = true)
              (exchange self []) after :=
            stores_exchange (fun _ _ _ => free _) (more.wrapper? wrapper)
          have run := honest.receiver code style
          rw [subject] at run
          exact (runs_perform calls run behind.fit (leads.usedAll behind.used) fit stores).bind
            fun result _ _ _ => runs_discard result
        | factory =>
          refine .adoptAll_bind valid fun adopted after more leads fit => ?_
          have unit : ∀ ref ∈ HostValue.unit.references, ref.place < after.heap.size :=
            fun ref member => by cases member
          refine (runs_perform calls (honest.factory code style) trivial unit fit
            (stores_discard _ _)).bind fun result last leads' fit' => ?_
          have struct : (program.maker code).subject = .struct bridged.host := by
            rw [← honest.product code style, subject]
          rw [← references_produced (program.maker code) result]
          refine runs_exchange (fun _ _ _ => free _) fun content' bridged'' wrapper' => ?_
          obtain ⟨rfl, _⟩ := leads'.same_wrapper (more.wrapper? wrapper) wrapper'
          exact ⟨_, typeAt?_nil _, fits_produced proper style struct fit'⟩
    | _ => exact .raise _

/-! ## Fields -/

/-- The type of a field is what its place says. -/
theorem typeAt?_field {host : StructId} {index : Nat}
    (inside : index < (program.struct host).fields.length) :
    program.typeAt? (.struct host) [index] = some (program.field host index).type := by
  rw [typeAt?, List.getElem?_eq_getElem inside]
  dsimp only
  rw [typeAt?_nil, field, List.getElem?_eq_getElem inside, Option.getD_some]

theorem fieldType?_field {host : StructId} {index : Nat}
    (inside : index < (program.struct host).fields.length) :
    program.fieldType? host index = some (program.field host index).type := by
  rw [fieldType?, field, List.getElem?_eq_getElem inside]
  rfl

/-- The value of a field behind a wrapper. -/
theorem valid_field {held : Multiset Ref} (sound : world.Sound program held) {ref : Ref}
    {content : Held} {bridged : BridgedType}
    (wrapper : world.heap.wrapper? ref = some (content, bridged)) {index : Nat}
    (inside : index < (program.struct bridged.host).fields.length) {value : HostValue}
    (found : (world.heap.wrapped? ref).bind (·.1.field? index) = some value) :
    value.Valid program world.heap (program.field bridged.host index).type := by
  obtain ⟨⟨part, bridged'⟩, wrapped, reading⟩ := Option.bind_eq_some_iff.mp found
  obtain ⟨content', wrapper'⟩ := Heap.wrapper?_of_wrapped? wrapped
  rw [wrapper, Option.some.injEq, Prod.mk.injEq] at wrapper'
  have whole := Decode.valid_wrapped? sound wrapped
  rw [← wrapper'.2] at whole
  obtain ⟨value', reading', fit⟩ := HostValue.at?_of_fits whole.fit (typeAt?_field inside)
  have same : value = value' := by
    rw [HostValue.at?, reading] at reading'
    exact Option.some.inj reading'
  refine ⟨same ▸ fit, fun inner member => whole.used inner ?_⟩
  exact HostValue.references_at? (by rw [reading', ← same]) member

/-- A field that is read as a copy. -/
theorem runs_readCopy {held : Multiset Ref} (sound : world.Sound program held) {self : Ref}
    {content : Held} {bridged : BridgedType}
    (wrapper : world.heap.wrapper? self = some (content, bridged)) {index : Nat}
    (inside : index < (program.struct bridged.host).fields.length) :
    Runs program touch
      (do
        match ((← Op.heap).wrapped? self).bind (·.1.field? index) with
        | some value =>
          Encode.value program bridged.registry (program.field bridged.host index).type value
        | none => Op.raise .notAWrapper) world 0 (fun ref => {ref}) fun _ _ => True := by
  refine .heap_bind ?_
  split
  · rename_i value reading
    have valid := valid_field sound wrapper inside reading
    exact Encode.runs_value _ value valid.fit valid.used
  · exact .raise _

theorem runs_readField (self : Ref) (id : Nat) :
    Runs program touch (program.readField self id) world 0 (fun ref => {ref})
      fun _ _ => True := by
  refine .assuming fun frame sound => .wrapperParts_bind fun content bridged wrapper => ?_
  refine .typeSlot_bind fun slot found => ?_
  have concerns := concerns_of_slot sound wrapper found
  cases role : slot.role with
  | get owner index =>
    rw [role] at concerns
    obtain ⟨rfl, inside⟩ := concerns
    have copy : Runs program touch _ world 0 _ _ := runs_readCopy sound wrapper inside
    dsimp only
    cases type : (program.field bridged.host index).type with
    | struct nested =>
      rw [type] at copy
      refine .look_bind rfl ?_
      cases handle : (world.registry bridged.registry).handle? nested with
      | none => exact copy
      | some shape =>
        obtain ⟨inner, bridgedType, registry, host⟩ := sound.wired.handle bridged.registry nested
          shape (Registry.mem_types_of_handle? handle)
        have declared : program.fieldType? bridged.host index = some (.struct inner.host) := by
          rw [fieldType?_field inside, type, host]
        have made : Makes program touch
            (wrapField bridged.registry shape self content index) world [] (fun ref => [ref]) _ :=
          makes_wrapField wrapper bridgedType registry rfl declared
        exact made.runs.weaken fun _ _ _ _ => trivial
    | _ =>
      rw [type] at copy
      exact .look_bind rfl copy
  | _ => exact .raise _

theorem runs_writeField (honest : program.Honest) (free : ∀ body, touch body) {self value : Ref}
    (id : Nat)
    (used : value.place < world.heap.size) :
    Runs program touch (program.writeField self value id) world 0 (fun _ => 0)
      fun _ _ => True := by
  refine .assuming fun frame sound => .wrapperParts_bind fun content bridged wrapper => ?_
  refine .typeSlot_bind fun slot found => ?_
  have concerns := concerns_of_slot sound wrapper found
  cases role : slot.role with
  | set owner index =>
    rw [role] at concerns
    obtain ⟨rfl, inside⟩ := concerns
    refine .heap_bind ?_
    cases reading : (world.heap.wrapped? self).bind (·.1.field? index) with
    | none => exact .raise _
    | some old =>
      have valid := valid_field sound wrapper inside reading
      dsimp only
      split
      · rename_i new read
        have fresh := Decode.valid_value honest.founded sound used valid read
        refine .adopt_bind fresh.used fun adopted after leads fits => ?_
        rw [zero_add]
        refine runs_exchange (fun _ _ _ => free _) fun content' bridged' wrapper' => ?_
        obtain ⟨rfl, _⟩ := leads.same_wrapper wrapper wrapper'
        exact ⟨_, typeAt?_field inside, by rw [fits]; exact fresh.fit⟩
      · exact .raise _
      · exact .panic _
      · exact .throw _
  | _ => exact .raise _

end Program

end HostBridge
