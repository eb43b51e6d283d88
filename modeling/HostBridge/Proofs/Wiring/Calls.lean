import HostBridge.Proofs.Calling.Rejection
import HostBridge.Proofs.Wiring.Access

/-!
# Calls of methods and of types

A function that was read from a wrapper runs the slot of its method on that wrapper, and a call
of a type runs the slot of its constructor on a new instance.  Apart from a key without a hash
in the result, such a call raises something only for its arguments.
-/

namespace HostBridge

open Op

variable {program : Program} {world : World} {held : Multiset Ref}

/-- What a call may raise: the arguments are refused, or the result has a key without a hash. -/
inductive Exception.OfCall : Exception → Prop
  | keywordsNotDict (typeName : String) : OfCall (.keywordsNotDict typeName)
  | wrongCount (exposed : String) (expected given : Nat) :
    OfCall (.wrongCount exposed expected given)
  | noKeywords (exposed : String) : OfCall (.noKeywords exposed)
  | argumentRefused (argument typeName reason : String) :
    OfCall (.argumentRefused argument typeName reason)
  | takesNoArguments (name : String) : OfCall (.takesNoArguments name)
  | unhashable (typeName : String) : OfCall (.unhashable typeName)

theorem Exception.Unhashable.ofCall {exception : Exception} (unhashable : exception.Unhashable) :
    exception.OfCall := by
  obtain ⟨typeName, rfl⟩ := unhashable
  exact .unhashable typeName

/-- What a call may raise is no runtime error; a slot that is missing or has another role is
reported as one. -/
theorem Exception.OfCall.kind_ne {exception : Exception} (ofCall : exception.OfCall) :
    exception.kind ≠ .runtimeError := by
  cases ofCall <;> rintro ⟨⟩

namespace Program

/-! ## Arguments -/

/-- A fault that is no exception, or one that a call may raise. -/
def FaultOfCall (fault : Fault) : Prop := ∀ exception, fault = .raised exception → exception.OfCall

theorem fails_decodeArguments (heap : Heap) (registry : RegistryId) (types : List HostType)
    (refs : List Ref) :
    FailsOnly (program.decodeArguments heap registry types refs) FaultOfCall := by
  induction types generalizing refs with
  | nil => exact .ok _
  | cons type types ih =>
    cases refs with
    | nil => exact .ok _
    | cons ref refs =>
      rw [decodeArguments]
      split
      · exact (ih refs).bind fun values => .ok _
      · rintro fault ⟨⟩ exception ⟨⟩
        exact .argumentRefused _ _ _
      · rintro fault ⟨⟩ exception ⟨⟩
      · rintro fault ⟨⟩ exception ⟨⟩

theorem fails_arguments (heap : Heap) (registry : RegistryId) (slot : Slot) (positional : List Ref)
    (keywords : Option Ref) :
    FailsOnly (program.arguments heap registry slot positional keywords) FaultOfCall := by
  rw [arguments_eq]
  split
  · rintro fault ⟨⟩ exception ⟨⟩
    exact .wrongCount _ _ _
  · split
    · rintro fault ⟨⟩ exception ⟨⟩
      exact .noKeywords _
    · intro fault failed
      cases read : program.decodeArguments heap registry
          (splitKeywords (program.slotParameters slot)).1 positional with
      | ok values =>
        rw [read] at failed
        cases failed
      | error other =>
        rw [read] at failed
        cases failed
        exact fails_decodeArguments heap registry _ positional _ read

section

variable {callback : Callback} {self : Ref} {content : Held} {bridged : BridgedType} {slot : Slot}
  {positional : List Ref} {keywords : Option Ref} {exception : Exception} {after : World}

/-! ## Methods -/

/-- How a method is run on a wrapper: the host code works on the value behind the wrapper, and
what it returns is encoded. -/
def applyMethod (program : Program) (callback : Callback) (registry : RegistryId)
    (method : MethodDecl) (self : Ref) (receiver : HostValue) (values : List HostValue) :
    Op Ref := do
  let result ← perform callback method.run receiver (← adoptAll values) (storeReceiver method self)
  (Encode.value program registry method.result result).always (·.releaseAll result.references)

theorem raises_applyMethod (registry : RegistryId) (method : MethodDecl) (self : Ref)
    (receiver : HostValue) (values : List HostValue) :
    RaisesOnly (program.applyMethod callback registry method self receiver values)
      Exception.Unhashable := by
  have stores : ∀ value, RaisesOnly (storeReceiver method self value) Exception.Unhashable := by
    intro value
    rw [storeReceiver]
    split
    · exact raises_exchange _ _ _
    · exact .change _
  exact (raises_adoptAll values).bind fun _ => (raises_perform stores).bind fun result =>
    (Encode.raises_value program registry _ result).always _

/-- What a method that is run on a wrapper may raise. -/
theorem raises_invoke_method {registry : RegistryId} {owner : StructId} {index : Nat}
    {receiver : HostValue} (role : slot.role = .method owner index)
    (wrapped : world.heap.wrapped? self = some (receiver, bridged))
    (ran : (program.invoke callback registry slot (.wrapper self) positional keywords).run world =
      (.error (.raised exception), after)) : exception.OfCall := by
  cases read : program.arguments world.heap registry slot positional keywords with
  | error fault =>
    rw [run_invoke_of_refused read] at ran
    cases ran
    exact fails_arguments _ _ _ _ _ _ read exception rfl
  | ok values =>
    rw [run_invoke_method read role wrapped] at ran
    exact (raises_applyMethod registry _ self receiver values world exception after ran).ofCall

/-- A function that is bound to a wrapper runs the method of its slot on the wrapper. -/
theorem run_runEntry_method {number : Nat} {owner : StructId} {index : Nat} {receiver : HostValue}
    {values : List HostValue} (wrapped : world.heap.wrapped? self = some (receiver, bridged))
    (alive : world.registryAlive bridged.registry = true)
    (found : bridged.slots[number]? = some slot) (role : slot.role = .method owner index)
    (read : program.arguments world.heap bridged.registry slot positional keywords = .ok values) :
    (program.runEntry callback (.slot number) self positional keywords).run world =
      (program.applyMethod callback bridged.registry (program.method owner index) self receiver
        values).run (world.note .trace s!"dispatch slot {number} ({slot.exposed})") := by
  obtain ⟨content, wrapper⟩ := Heap.wrapper?_of_wrapped? wrapped
  rw [runEntry, run_dispatch_wrapper wrapper alive found]
  exact run_invoke_method read role wrapped

/-- What a call raises, it raises for its keyword arguments or after the queue has been worked
off. -/
theorem exists_drained_of_raised {depth : Nat} {callee : Ref}
    (ran : (program.callWithin (depth + 1) callee positional keywords).run world =
      (.error (.raised exception), after)) :
    (∃ typeName, exception = .keywordsNotDict typeName) ∨ ∃ drained,
      drainIfDue.run world = (.ok (), drained) ∧ ∀ ref ∈ keywords, world.heap.isDict ref = true := by
  by_cases dict : ∀ ref ∈ keywords, world.heap.isDict ref = true
  · rcases ended : drainIfDue.run world with ⟨result, drained⟩
    cases result with
    | ok _ => exact .inr ⟨drained, rfl, dict⟩
    | error fault =>
      have failed : (program.callWithin (depth + 1) callee positional keywords).run world =
          (.error fault, drained) := by
        rw [callWithin, Operation.run_bind_of_ok (run_heap world)]
        cases keywords with
        | none => exact Operation.run_bind_of_error ended _
        | some ref =>
          dsimp only
          rw [dict ref rfl]
          exact Operation.run_bind_of_error ended _
      rw [failed] at ran
      cases ran
      have never : RaisesOnly drainIfDue fun _ => False := raises_drainIfDue
      exact (never world exception _ ended).elim
  · obtain ⟨ref, none⟩ := not_forall.mp dict
    obtain ⟨given, other⟩ := Classical.not_imp.mp none
    obtain rfl : keywords = some ref := given
    rw [callWithin, Operation.run_bind_of_ok (run_heap world)] at ran
    dsimp only at ran
    rw [Bool.not_eq_true] at other
    rw [other] at ran
    cases ran
    exact .inl ⟨_, rfl⟩

/-- What a call of a function that is bound to a wrapper as a method may raise. -/
theorem raises_call_method (sound : world.Sound program held) {function : Ref}
    (member : function ∈ held) {definition : MethodDef}
    (body : world.heap.body function = .function definition (.bound self))
    (wrapper : world.heap.wrapper? self = some (content, bridged))
    (alive : world.registryAlive bridged.registry = true) {number : Nat}
    (entry : definition.entry = .slot number) (found : bridged.slots[number]? = some slot)
    {index : Nat} (role : slot.role = .method bridged.host index) {depth : Nat}
    (ran : (program.callWithin (depth + 1) function positional keywords).run world =
      (.error (.raised exception), after)) : exception.OfCall := by
  rcases exists_drained_of_raised ran with ⟨typeName, rfl⟩ | ⟨drained, ended, dict⟩
  · exact .keywordsNotDict typeName
  · have framed : world.Sound program (0 + held) := by rwa [zero_add]
    have path := path_of_drained framed ended
    have soundDrained := (path.frame held).sound framed
    have body' := path.keeps_object framed body (by simp) id member
    obtain ⟨cell, there, _⟩ := Heap.exists_cell_of_body body' (by simp)
    obtain ⟨_, content', wrapper', _⟩ := path.keeps_receiver framed body wrapper there
    rw [run_callWithin dict ended, body'] at ran
    have owner : (functionOwner (.bound self)).run drained = (.ok self, drained.retain self) := rfl
    dsimp only at ran
    rw [Operation.run_bind_of_ok owner, run_always, entry] at ran
    have alive' : (drained.retain self).registryAlive bridged.registry = true := by
      rw [← alive, ← registryAlive_drainIfDue ended]
      rfl
    have wrapperRetained := (World.Extends.retain drained self).wrapper? wrapper'
    rw [runEntry, run_dispatch_wrapper wrapperRetained alive' found] at ran
    obtain ⟨receiver, wrapped, _⟩ := soundDrained.wired.exists_wrapped? wrapper'
    have noted : ∀ level text, ((drained.retain self).note level text).heap.wrapped? self =
        some (receiver, bridged) :=
      fun _ _ => (World.Extends.retain drained self).wrapped? wrapped
    exact raises_invoke_method role (noted _ _) (Prod.ext (Prod.mk.inj ran).1 rfl)

/-! ## Constructors -/

/-- How a constructor fills a new instance: it works on the value behind the instance, or makes
one that is put there. -/
def fill (callback : Callback) (maker : MakerDecl) (self : Ref) (fresh : HostValue)
    (values : List HostValue) : Op Unit :=
  match maker.style with
  | .receiver => do
    let result ← perform callback maker.run fresh (← adoptAll values) (exchange self [])
    discard result
  | .factory => do
    let result ← perform callback maker.run .unit (← adoptAll values) discard
    exchange self [] (produced maker result)

/-- A constructor whose arguments are accepted fills the instance. -/
theorem run_construct {id code : Nat} {fresh : HostValue} {values : List HostValue}
    (wrapper : world.heap.wrapper? self = some (content, bridged))
    (wrapped : world.heap.wrapped? self = some (fresh, bridged))
    (alive : world.registryAlive bridged.registry = true) (made : bridged.maker = some id)
    (found : bridged.slots[id]? = some slot) (role : slot.role = .construct code)
    (read : program.arguments world.heap bridged.registry slot positional keywords = .ok values) :
    (program.construct callback self positional keywords).run world =
      (fill callback (program.maker code) self fresh values).run world := by
  have accepted : (ofExcept (program.arguments world.heap bridged.registry slot positional
      keywords)).run world = (.ok values, world) := by rw [run_ofExcept, read]
  rw [construct, Operation.run_bind_of_ok (run_wrapperParts wrapper alive)]
  dsimp only
  rw [made]
  dsimp only
  rw [Operation.run_bind_of_ok (run_typeSlot found), role]
  dsimp only
  rw [Operation.run_bind_of_ok (run_heap world), Operation.run_bind_of_ok accepted, wrapped]
  rfl

/-- What a constructor may raise. -/
theorem raises_construct {id code : Nat} {fresh : HostValue}
    (wrapper : world.heap.wrapper? self = some (content, bridged))
    (wrapped : world.heap.wrapped? self = some (fresh, bridged))
    (alive : world.registryAlive bridged.registry = true) (made : bridged.maker = some id)
    (found : bridged.slots[id]? = some slot) (role : slot.role = .construct code)
    (ran : (program.construct callback self positional keywords).run world =
      (.error (.raised exception), after)) : exception.OfCall := by
  cases read : program.arguments world.heap bridged.registry slot positional keywords with
  | error fault =>
    rw [run_construct_of_refused wrapper alive made found role read] at ran
    cases ran
    exact fails_arguments _ _ _ _ _ _ read exception rfl
  | ok values =>
    rw [run_construct wrapper wrapped alive made found role read] at ran
    have never : RaisesOnly (fill callback (program.maker code) self fresh values)
        fun _ => False := by
      rw [fill]
      split
      · exact (raises_adoptAll values).bind fun _ =>
          (raises_perform fun value => raises_exchange self [] value).bind fun _ => .change _
      · exact (raises_adoptAll values).bind fun _ =>
          (raises_perform fun value => .change _).bind fun _ => raises_exchange self [] _
    exact (never world exception after ran).elim

/-! ## New instances -/

/-- A new instance is a wrapper around the zero value of its struct. -/
theorem makes_allocateWrapper (founded : program.Founded) (sound : world.Sound program held)
    {type : Ref} (shape : world.heap.bridgedType? type = some bridged)
    (alive : world.registryAlive bridged.registry = true) :
    Makes program Permission.nothing (program.allocateWrapper type) world [] (fun ref => [ref])
      fun ref made => made.heap.wrapper? ref =
          some (.owned (copied (program.zero (.struct bridged.host)) world), bridged) ∧
        made.registryAlive bridged.registry = true := by
  have zero := program.valid_zero founded sound.grounded.large (.struct bridged.host)
  have wraps : Makes program Permission.nothing
      (wrapCopy bridged.registry type (program.zero (.struct bridged.host))) world []
      (fun ref => [ref]) _ := makes_wrapCopy shape rfl zero.fit zero.used
  obtain ⟨self, made, ended, makes, wrapper⟩ := wraps
  have ran : (program.allocateWrapper type).run world = (.ok self, made) := by
    rw [allocateWrapper, Operation.run_bind_of_ok (run_heap world), shape]
    dsimp only
    rw [Operation.run_bind_of_ok (run_liveRegistry alive), ended]
  refine ⟨self, made, ran, makes, wrapper, ?_⟩
  rwa [World.registryAlive, makes.more.owners]

/-- A call of a bridged type with a constructor makes a new instance and runs the constructor on
it; if that fails the instance is released. -/
theorem run_instantiate {type : Ref} {shape : TypeBody} {made : World}
    (allocator : shape.allocator = some .bridge) (maker : shape.maker = some .bridge)
    (allocated : (program.allocateWrapper type).run world = (.ok self, made)) :
    (program.instantiate callback type shape positional keywords).run world =
      (do
        (program.construct callback self positional keywords).undoing (·.release self)
        return self).run made := by
  have allocated' : (program.allocate shape type).run world = (.ok self, made) := by
    rw [allocate, allocator]
    exact allocated
  rw [instantiate, Operation.run_bind_of_ok allocated', runMaker, maker]

/-- An instance is not made because its constructor has failed. -/
theorem failed_of_undoing {action : Op Unit} {step : World → World} {fault : Fault}
    (ran : (do action.undoing step; return self : Op Ref).run world = (.error fault, after)) :
    ∃ middle, action.run world = (.error fault, middle) := by
  rcases ended : action.run world with ⟨result, middle⟩
  cases result with
  | ok value =>
    rw [Operation.run_bind_of_ok (run_undoing_of_ok ended step)] at ran
    cases ran
  | error other =>
    rw [Operation.run_bind_of_error (run_undoing_of_error ended step)] at ran
    cases ran
    exact ⟨middle, rfl⟩

/-- What a call of a bridged type may raise. -/
theorem raises_call_type (founded : program.Founded) (sound : world.Sound program held)
    {type : Ref} (member : type ∈ held)
    (bridges : world.heap.bridgedType? type = some bridged)
    (alive : world.registryAlive bridged.registry = true) {depth : Nat}
    (ran : (program.callWithin (depth + 1) type positional keywords).run world =
      (.error (.raised exception), after)) : exception.OfCall := by
  rcases exists_drained_of_raised ran with ⟨typeName, rfl⟩ | ⟨drained, ended, dict⟩
  · exact .keywordsNotDict typeName
  · have framed : world.Sound program (0 + held) := by rwa [zero_add]
    have path := path_of_drained framed ended
    have soundDrained : drained.Sound program held := by
      have sound := (path.frame held).sound framed
      rwa [zero_add] at sound
    have bridges' := path.keeps_type framed bridges member
    have alive' : drained.registryAlive bridged.registry = true := by
      rw [registryAlive_drainIfDue ended, alive]
    obtain ⟨shape, reading, context, synthesized⟩ := soundDrained.wired.synthesized bridges'
    obtain ⟨allocator, handler⟩ := synthesized.handlers context
    obtain ⟨self, made, allocated, makes, wrapper, aliveMade⟩ :=
      makes_allocateWrapper founded soundDrained bridges' alive'
    rw [run_callWithin dict ended, reading] at ran
    dsimp only at ran
    cases maker : bridged.maker with
    | none =>
      have allocated' : (program.allocate shape type).run drained = (.ok self, made) := by
        rw [allocate, allocator]
        exact allocated
      rw [instantiate, Operation.run_bind_of_ok allocated', runMaker, handler, maker] at ran
      obtain ⟨middle, failed⟩ := failed_of_undoing ran
      dsimp only [Option.map_none] at failed
      rw [Operation.run_bind_of_ok (run_heap made)] at failed
      split at failed
      · cases failed
        exact .takesNoArguments _
      · cases failed
    | some number =>
      rw [run_instantiate allocator (by rw [handler, maker]; rfl) allocated] at ran
      obtain ⟨code, slot, found, role⟩ := synthesized.construct context maker
      have soundMade := (makes.path_new held).sound soundDrained
      obtain ⟨fresh, wrapped, _⟩ := soundMade.wired.exists_wrapped? wrapper
      obtain ⟨middle, failed⟩ := failed_of_undoing ran
      exact raises_construct wrapper wrapped aliveMade maker found role failed

end

end Program

end HostBridge
