import HostBridge.Proofs.Dict.Invoking

/-!
# Sessions keep heaps canonical

Attributes are read and written and objects called in canonical heaps, and the heap stays canonical;
for calls this is by induction on how deep they may nest.  So the heap of every session is canonical,
if the native entry points of the program do as they are promised to.
-/

namespace HostBridge

open Op

variable {program : Program} {world : World} {held : Multiset Ref}

namespace Program

variable {callback : Callback} {self : Ref} {positional : List Ref} {keywords : Option Ref}

/-! ## Attributes -/

section

variable (honest : program.Honest) (orderly : program.Orderly)
  (reached : world.Reached program held)

include honest reached

/-- A field that is no registered struct is read as a copy. -/
theorem orderly_readCopy {self : Ref} {content : Held} {bridged : BridgedType} {index : Nat}
    (wrapper : world.heap.wrapper? self = some (content, bridged))
    (inside : index < (program.struct bridged.host).fields.length) :
    Op.Orderly
      (do
        match ((← Op.heap).wrapped? self).bind (·.1.field? index) with
        | some value =>
          Encode.value program bridged.registry (program.field bridged.host index).type value
        | none => Op.raise .notAWrapper) world := by
  refine .heap_bind ?_
  split
  · rename_i value reading
    have valid := valid_field (reached.sound honest) wrapper inside reading
    exact orderly_encode honest reached valid.fit valid.used
  · exact .raise _

theorem orderly_readField (self : Ref) (id : Nat) :
    Op.Orderly (program.readField self id) world := by
  have sound := reached.sound honest
  refine .wrapperParts_bind fun content bridged wrapper => .typeSlot_bind fun slot found => ?_
  have concerns := concerns_of_slot sound wrapper found
  cases role : slot.role with
  | get owner index =>
    rw [role] at concerns
    obtain ⟨rfl, inside⟩ := concerns
    have copy := orderly_readCopy honest reached wrapper inside
    dsimp only
    cases type : (program.field bridged.host index).type with
    | struct nested =>
      rw [type] at copy
      refine .look_bind (looks_handle? _ _) fun handle _ => ?_
      cases handle with
      | some shape => exact orderly_wrapField _ _ _ _ _
      | none => exact copy
    | _ =>
      rw [type] at copy
      exact .pure_bind copy
  | _ => exact .raise _

include orderly

theorem orderly_runGetter {accessor : AccessorDef} (used : self.place < world.heap.size) :
    Op.Orderly (program.runGetter accessor self) world := by
  unfold runGetter
  split
  · exact orderly_readField honest reached self _
  · exact orderly.nativeGetter _ self _ world held reached (by simpa using used)

theorem orderly_getAttribute {name : String} (used : self.place < world.heap.size) :
    Op.Orderly (program.getAttribute self name) world := by
  refine .heap_bind ?_
  dsimp only
  cases world.heap.body self with
  | «instance» type state =>
    dsimp only
    split
    · exact .raise _
    · split
      · exact orderly_runGetter honest orderly reached used
      · exact orderly_createFunction _ _
      · split
        · exact orderly_retain _
        · exact .raise _
  | module contents =>
    dsimp only
    split
    · exact orderly_retain _
    · split
      · exact orderly_place trivial
      · exact orderly_place trivial
      · exact .raise _
  | type shape =>
    dsimp only
    split
    · exact orderly_place trivial
    · exact orderly_place trivial
    · exact .raise _
  | function definition owner =>
    dsimp only
    split
    · exact orderly_place trivial
    · exact orderly_place trivial
    · split
      · exact orderly_place trivial
      · exact orderly_retain _
    · exact orderly_functionOwner _
    · exact .raise _
  | _ => exact .raise _

theorem orderly_hasAttribute {name : String} (used : self.place < world.heap.size) :
    Op.Orderly (program.hasAttribute self name) world := by
  intro canonical
  have canonical' : ((program.getAttribute self name).run world).2.Canonical :=
    orderly_getAttribute honest orderly reached used canonical
  rw [hasAttribute, run_ofFunction]
  rcases ran : (program.getAttribute self name).run world with ⟨result, after⟩
  rw [ran] at canonical'
  cases result with
  | ok ref => exact canonical'.release ref
  | error fault => cases fault <;> exact canonical'

end

theorem orderly_setAttribute (orderly : program.Orderly) (reached : world.Reached program held)
    {name : String} {value : Ref} (used : self.place < world.heap.size)
    (valueUsed : value.place < world.heap.size) :
    Op.Orderly (program.setAttribute self name value) world := by
  refine .heap_bind ?_
  cases reading : world.heap.body self with
  | «instance» type state =>
    dsimp only
    split
    · exact .raise _
    · split
      · exact .raise _
      · unfold runSetter
        split
        · exact orderly_writeField _ _ _
        · refine orderly.nativeSetter _ self value _ world held reached fun ref member => ?_
          rcases List.mem_cons.mp member with rfl | rest
          · exact used
          · rwa [List.mem_singleton.mp rest]
  | module contents => exact .change fun canonical => canonical.replace_module reading _
  | _ => exact .raise _

/-! ## Calls -/

theorem orderly_allocate (orderly : program.Orderly) (reached : world.Reached program held)
    {shape : TypeBody} {type : Ref} (used : type.place < world.heap.size) :
    Op.Orderly (program.allocate shape type) world := by
  unfold allocate
  split
  · exact orderly_createInstance type
  · exact orderly_allocateWrapper type
  · exact orderly.nativeAllocator _ type world held reached (by simpa using used)

section

variable (honest : program.Honest) (orderly : program.Orderly)
  (calls : Callback.Counts program .anything callback) (back : callback.Orderly program)
  (reached : world.Reached program held) (selfUsed : self.place < world.heap.size)
  (used : ∀ ref ∈ positional, ref.place < world.heap.size)
  (keywordsUsed : ∀ ref ∈ keywords, ref.place < world.heap.size)

include honest orderly calls back reached selfUsed used keywordsUsed

theorem orderly_runMaker {shape : TypeBody} :
    Op.Orderly (program.runMaker callback shape self positional keywords) world := by
  unfold runMaker
  split
  · exact orderly_construct honest calls back reached used keywordsUsed
  · exact orderly.nativeMaker _ self positional keywords world held reached
      (used_borrowed selfUsed used keywordsUsed)
  · refine .heap_bind ?_
    dsimp only
    split
    · exact .raise _
    · exact .pure _

theorem orderly_runEntry {entry : Entry} :
    Op.Orderly (program.runEntry callback entry self positional keywords) world := by
  unfold runEntry
  split
  · exact orderly_dispatch honest calls back reached used keywordsUsed
  · exact orderly_dispatchAdHoc honest calls back reached used keywordsUsed
  · exact orderly.nativeFunction _ self positional keywords world held reached
      (used_borrowed selfUsed used keywordsUsed)

theorem orderly_instantiate {shape : TypeBody} :
    Op.Orderly (program.instantiate callback self shape positional keywords) world := by
  refine (runs_allocate honest honest.confined selfUsed).orderly_bind honest
    (by rwa [zero_add]) (orderly_allocate orderly reached selfUsed)
    fun fresh after leads reached' _ => ?_
  refine .bind (.undoing ?_ fun _ canonical => canonical.release fresh) fun _ _ _ => .pure _
  exact orderly_runMaker honest orderly calls back reached'
    ((reached'.sound honest).used_of_held (by simp)) (leads.usedAll used)
    fun ref member => leads.used (keywordsUsed ref member)

/-- What a call does once its keyword arguments have been looked at. -/
theorem orderly_callee :
    Op.Orderly
      (do
        Op.drainIfDue
        match (← Op.heap).body self with
        | .function definition owner =>
          let self ← Op.functionOwner owner
          (program.runEntry callback definition.entry self positional keywords).always
            (·.release self)
        | .type shape => program.instantiate callback self shape positional keywords
        | _ => Op.raise (.notCallable (world.heap.typeName self))) world := by
  refine runs_drainIfDue.orderly_bind honest (by rwa [zero_add]) orderly_drainIfDue
    fun _ after leads reached' _ => .heap_bind ?_
  have sound := reached'.sound honest
  cases reading : after.heap.body self with
  | function definition owner =>
    have ownerUsed : ∀ ref, owner = .bound ref → ref.place < after.heap.size := by
      rintro ref rfl
      refine sound.used_of_body self ?_
      rw [reading]
      simp [Body.references]
    refine (runs_functionOwner ownerUsed).orderly_bind honest (by rwa [zero_add])
      (orderly_functionOwner owner) fun owned last leads' reached'' _ => ?_
    refine .always ?_ fun _ canonical => canonical.release owned
    exact orderly_runEntry honest orderly calls back reached''
      ((reached''.sound honest).used_of_held (by simp)) ((leads.trans leads').usedAll used)
      fun ref member => (leads.trans leads').used (keywordsUsed ref member)
  | type shape =>
    exact orderly_instantiate honest orderly calls back reached' (leads.used selfUsed)
      (leads.usedAll used) fun ref member => leads.used (keywordsUsed ref member)
  | _ => exact .raise _

end

theorem orderly_callWithin (honest : program.Honest) (orderly : program.Orderly) (depth : Nat) :
    ∀ (callee : Ref) (positional : List Ref) (keywords : Option Ref) (world : World)
      (held : Multiset Ref), world.Reached program held → callee.place < world.heap.size →
      (∀ ref ∈ positional, ref.place < world.heap.size) →
      (∀ ref ∈ keywords, ref.place < world.heap.size) →
        Op.Orderly (program.callWithin depth callee positional keywords) world := by
  induction depth with
  | zero => exact fun _ _ _ _ _ _ _ _ _ => .throw _
  | succ depth ih =>
    intro callee positional keywords world held reached calleeUsed used keywordsUsed
    have calls : Callback.Counts program .anything
        (fun callee arguments => program.callWithin depth callee arguments none) :=
      fun callee arguments world calleeUsed used =>
        runs_callWithin honest honest.confined depth callee arguments none world calleeUsed used
          fun ref member => by cases member
    have back : Callback.Orderly program
        (fun callee arguments => program.callWithin depth callee arguments none) :=
      fun callee arguments world held reached used =>
        ih callee arguments none world held reached (used callee (by simp))
          (fun ref member => used ref (by simp [member])) fun ref member => by cases member
    refine .heap_bind ?_
    cases keywords with
    | none => exact orderly_callee honest orderly calls back reached calleeUsed used keywordsUsed
    | some dict =>
      dsimp only
      split
      · exact .raise _
      · exact orderly_callee honest orderly calls back reached calleeUsed used keywordsUsed

section

variable (honest : program.Honest) (orderly : program.Orderly)
  (reached : world.Reached program held)

include honest orderly reached

theorem orderly_call {callee : Ref} (calleeUsed : callee.place < world.heap.size)
    (used : ∀ ref ∈ positional, ref.place < world.heap.size)
    (keywordsUsed : ∀ ref ∈ keywords, ref.place < world.heap.size) :
    Op.Orderly (program.call callee positional keywords) world :=
  orderly_callWithin honest orderly callDepth callee positional keywords world held reached
    calleeUsed used keywordsUsed

theorem orderly_callMethod {name : String} (selfUsed : self.place < world.heap.size)
    (used : ∀ ref ∈ positional, ref.place < world.heap.size) :
    Op.Orderly (program.callMethod self name positional) world := by
  refine (runs_getAttribute honest.confined selfUsed).orderly_bind honest (by rwa [zero_add])
    (orderly_getAttribute honest orderly reached selfUsed) fun method after leads reached' _ => ?_
  refine .always ?_ fun _ canonical => canonical.release method
  exact orderly_call honest orderly reached' ((reached'.sound honest).used_of_held (by simp))
    (leads.usedAll used) fun ref member => by cases member

theorem orderly_callAs {bridge : Bridge} {type : HostType} {callee : Ref}
    (calleeUsed : callee.place < world.heap.size)
    (used : ∀ ref ∈ positional, ref.place < world.heap.size) :
    Op.Orderly (program.callAs bridge type callee positional) world := by
  intro canonical
  have canonical' : ((program.call callee positional none).run world).2.Canonical :=
    orderly_call honest orderly reached calleeUsed used (fun ref member => by cases member) canonical
  rw [callAs, run_ofFunction]
  rcases ran : (program.call callee positional none).run world with ⟨result, after⟩
  rw [ran] at canonical'
  cases result with
  | ok ref => exact orderly_readResult bridge type ref canonical'
  | error fault => cases fault <;> exact canonical'

end

end Program

/-! ## Requests -/

namespace Request

/-- What follows an operation without doing anything keeps the heap canonical. -/
theorem orderly_returning {α β : Type} {action : Op α} {result : α → β}
    (orderly : Op.Orderly action world) :
    Op.Orderly (do return result (← action)) world :=
  .bind orderly fun _ _ _ => .pure _

theorem orderly_attach (thread : Thread) (detached : Detached) :
    Op.Orderly ((attach thread detached).run program) world := by
  have attaching : Op.Orderly (Op.attach thread detached) world := by
    rw [Op.attach]
    split
    · exact .bind (.change fun canonical => canonical.dropDetached thread detached) fun _ _ _ =>
        .raise _
    · refine .world_bind ?_
      split
      · exact .bind (.change fun canonical => canonical.dropDetached thread detached) fun _ _ _ =>
          .raise _
      · exact .pure _
  intro canonical
  have canonical' := attaching canonical
  dsimp only [Request.run]
  rw [run_ofFunction]
  rcases ran : (Op.attach thread detached).run world with ⟨result, after⟩
  rw [ran] at canonical'
  cases result <;> exact canonical'

theorem keyless_of_common {body : Body} (common : body.Common) : body.Keyless := by
  cases body <;> trivial

/-- Requests keep the heap canonical. -/
theorem orderly (honest : program.Honest) (orderly : program.Orderly)
    {request : Request} (reached : world.Reached program (request.spent + held))
    (allowed : request.Allowed program world) : Op.Orderly (request.run program) world := by
  obtain ⟨used, permitted⟩ := allowed
  cases request with
  | retain ref => exact orderly_returning (orderly_retain ref)
  | release ref => exact .bind (orderly_release ref) fun _ _ _ => .pure _
  | attach thread detached => exact orderly_attach thread detached
  | dropDetached thread detached => exact fun canonical => canonical.dropDetached thread detached
  | create body => exact orderly_returning (orderly_create (keyless_of_common permitted))
  | createDict pairs =>
    refine orderly_returning (orderly_createDict fun pair member => used _ ?_)
    exact List.mem_flatMap.mpr ⟨pair, member, by simp⟩
  | createModule name doc => exact orderly_returning (Op.orderly_createModule name doc)
  | createFunction definition self =>
    exact orderly_returning (Op.orderly_createFunction definition self)
  | createType shape => exact orderly_returning (orderly_createType shape)
  | createInstance type => exact orderly_returning (orderly_createInstance type)
  | item ref index => exact orderly_returning (orderly_item ref index)
  | setItem ref index value => exact .bind (orderly_setItem ref index value) fun _ _ _ => .pure _
  | append ref value => exact .bind (orderly_append ref value) fun _ _ _ => .pure _
  | dictGet ref name => exact orderly_returning (orderly_dictGet ref name)
  | dictGetText ref name => exact orderly_returning (orderly_dictGetText ref name)
  | dictSet ref name value =>
    exact .bind (orderly_dictSet ref (used name (by simp [borrowed])) value) fun _ _ _ => .pure _
  | dictErase ref name => exact orderly_returning (orderly_dictErase ref name)
  | dictItems ref => exact orderly_returning (orderly_dictItems ref)
  | global ref name => exact .heap_bind (orderly_returning (orderly_retainOption _))
  | addObject ref name value => exact .bind (orderly_addObject ref name value) fun _ _ _ => .pure _
  | addFunction ref definition => exact orderly_returning (orderly_addFunction ref definition)
  | setModuleState ref state => exact .bind (orderly_setModuleState ref state) fun _ _ _ => .pure _
  | setInstanceState ref state =>
    exact .bind (orderly_setInstanceState ref state) fun _ _ _ => .pure _
  | instanceType ref => exact .heap_bind (orderly_returning (orderly_retainOption _))
  | getAttribute self name =>
    exact orderly_returning
      (program.orderly_getAttribute honest orderly reached (used self (by simp [borrowed])))
  | hasAttribute self name =>
    exact .bind (program.orderly_hasAttribute honest orderly reached
      (used self (by simp [borrowed]))) fun _ _ _ => .pure _
  | setAttribute self name value =>
    exact .bind (program.orderly_setAttribute orderly reached
      (used self (by simp [borrowed])) (used value (by simp [borrowed]))) fun _ _ _ => .pure _
  | call callee positional keywords =>
    exact orderly_returning (program.orderly_call honest orderly reached
      (used callee (by simp [borrowed])) (fun ref member => used ref (by simp [borrowed, member]))
      fun ref member => used ref (by simp_all [borrowed]))
  | callMethod self name positional =>
    exact orderly_returning (program.orderly_callMethod honest orderly reached
      (used self (by simp [borrowed])) fun ref member => used ref (by simp [borrowed, member]))
  | start configuration => exact .bind (orderly_start configuration) fun _ _ _ => .pure _
  | mainModule id => exact orderly_returning (orderly_mainModule id)
  | addModule id ref => exact .bind (orderly_addModule id ref) fun _ _ _ => .pure _
  | findModule id name => exact orderly_returning (orderly_findModule id name)
  | announce id name => exact .bind (orderly_change rfl) fun _ _ _ => .pure _
  | setText id text => exact .bind (orderly_change rfl) fun _ _ _ => .pure _
  | setNumber id number => exact .bind (orderly_change rfl) fun _ _ _ => .pure _
  | flush id => exact .bind (orderly_flush id) fun _ _ _ => .pure _
  | finalize id => exact .bind (orderly_finalize id) fun _ _ _ => .pure _
  | retainInterpreter id => exact .bind (orderly_change rfl) fun _ _ _ => .pure _
  | dropInterpreter id => exact .bind (orderly_dropInterpreter id) fun _ _ _ => .pure _
  | applyManifest manifest => exact .bind (orderly_applyManifest manifest) fun _ _ _ => .pure _
  | connect id => exact .bind (Program.orderly_connect id) fun _ _ _ => .pure _
  | disconnect bridge => exact .bind (Program.orderly_disconnect bridge) fun _ _ _ => .pure _
  | createBridgeModule bridge name doc =>
    exact orderly_returning (Program.orderly_createBridgeModule bridge name doc)
  | registerType bridge type module name doc =>
    exact orderly_returning (program.orderly_register _ _ _ _ _ _)
  | registerTypeWith bridge code module name doc =>
    exact orderly_returning (program.orderly_registerTypeWith _ _ _ _ _)
  | registerTypeHolding bridge exported module name doc =>
    exact orderly_returning (program.orderly_registerTypeHolding _ _ _ _ _)
  | registerFunction bridge module exported name doc =>
    exact orderly_returning (program.orderly_registerFunction _ _ _ _ _)
  | exportFunction bridge exported name doc =>
    exact orderly_returning (program.orderly_exportFunction _ _ _ _)
  | typeOf bridge type => exact orderly_returning (Program.orderly_typeOf bridge type)
  | toObject bridge type value =>
    exact orderly_returning (orderly_encodeOwned honest reached permitted)
  | fromObject bridge type ref => exact orderly_returning (program.orderly_fromObject _ _ _)
  | zeroValue type => exact orderly_returning (orderly_adopt _)
  | callAs bridge type callee positional =>
    exact orderly_returning (program.orderly_callAs honest orderly reached
      (used callee (by simp [borrowed])) fun ref member => used ref (by simp [borrowed, member]))
  | copyBehind bridge type ref =>
    refine .bind (.of_looks (Program.looks_valueBehind _ _ _)) fun _ _ _ => ?_
    split
    · exact orderly_returning (orderly_adopt _)
    · exact .pure _
  | updateBehind bridge type ref update =>
    exact .bind (Program.orderly_updateBehind _ _ _ _) fun _ _ _ => .pure _

end Request

/-- The heap of a session is canonical. -/
theorem Session.canonical (honest : program.Honest) (orderly : program.Orderly)
    (session : Session program world held) : world.Canonical := by
  induction session with
  | initial => exact Heap.canonical_initial
  | request request session allowed run ih =>
    have canonical := request.orderly honest orderly ⟨_, _, session, .refl _ _⟩ allowed ih
    rwa [run] at canonical

end HostBridge
