import HostBridge.Bridge.Decode
import HostBridge.Bridge.Encode

/-!
# Running host code

A slot is run in four steps: its arguments are decoded, the host routine runs,
what it leaves behind is stored, and its result is encoded.  Decoding comes
first and changes nothing, so a call with the wrong arguments has no effect.

A routine may call back into the runtime; `Callback` is how.
-/

namespace HostBridge

/-- A call into the runtime, with positional arguments only. -/
abbrev Callback := Ref → List Ref → Op Ref

namespace Op

/-- Run a routine to its end.  `held` are the references that it has obtained on
the way; they are handed to the caller, and released if the routine is cut off. -/
def runRoutine (callback : Callback) (held : List Ref) :
    Routine → Op (Outcome × List Ref)
  | .ended outcome => return (outcome, held)
  | .makeText text resume => do
    let ref ← place (.text text)
    runRoutine callback (held ++ [ref]) (resume ref)
  | .call callee arguments resume =>
    ofFunction fun world =>
      match (callback callee arguments).run world with
      | (.ok ref, world) =>
        (runRoutine callback (held ++ [ref]) (resume world.heap (.ok ref))).run world
      | (.error (.raised exception), world) =>
        (runRoutine callback held (resume world.heap (.error exception))).run world
      | (.error fault, world) => (.error fault, world.releaseAll held)

/-- Keep the state that a function captured, in the slot that it came from. -/
def storeCaptured (owner : Ref) (slot : Nat) (captured : HostValue) : Op Unit := do
  let update := fun (entry : Slot) =>
    match entry.role with
    | .function code _ => { entry with role := .function code captured }
    | _ => entry
  match (← heap).body owner with
  | .module contents =>
    match contents.state with
    | some (.slotTable registry slots) =>
      change (·.replace owner (.module
        { contents with state := some (.slotTable registry (slots.modify slot update)) }))
    | _ => return
  | .capsule name (.adHoc registry entry) =>
    change (·.replace owner (.capsule name (.adHoc registry (update entry))))
  | _ => return

/--
Run host code on a value, with arguments that are owned by this call.  What the
code leaves of the value goes to `store`, which comes to own it, whether or not
the code panics.  The result is owned by the caller.
-/
def perform (callback : Callback) (run : Behaviour) (subject : HostValue)
    (arguments : List HostValue) (store : HostValue → Op Unit) : Op HostValue := do
  let passed := HostValue.referencesAll arguments
  let (outcome, held) ←
    (runRoutine callback [] (run (← heap) subject arguments)).undoing (·.releaseAll passed)
  let result ←
    match outcome.result with
    | .ok result => do
      let result ← adopt result
      pure (Except.ok result)
    | .error message => pure (.error message)
  store (← adopt outcome.subject)
  releaseAll held
  releaseAll passed
  match result with
  | .ok result => return result
  | .error message => panic (.hostCode message)

end Op

namespace Program

variable (program : Program)

/-- Decode positional arguments by the types of their parameters. -/
def decodeArguments (heap : Heap) (registry : RegistryId) :
    List HostType → List Ref → Except Fault (List HostValue)
  | type :: types, ref :: refs => do
    let value ←
      match Decode.fresh program heap registry type ref with
      | .ok value => Except.ok value
      | .error (.error cause) =>
        .error (.raised (.argumentRefused (heap.text ref) (program.typeName type) cause.message))
      | .error (.panic misuse) => .error (.panicked misuse)
      | .error .tooDeep => .error .exhausted
    return value :: (← decodeArguments heap registry types refs)
  | _, _ => .ok []

/-- Check and decode the arguments of a slot.  A last parameter that collects
keyword arguments gets the dict of the caller, or a dict of its own if that is
empty or missing. -/
def arguments (heap : Heap) (registry : RegistryId) (slot : Slot) (positional : List Ref)
    (keywords : Option Ref) : Except Fault (List HostValue) := do
  let (types, collects) := splitKeywords (program.slotParameters slot)
  if positional.length ≠ types.length then
    throw (.raised (.wrongCount slot.exposed types.length positional.length))
  let keywords := keywords.filter fun dict => 0 < heap.dictSize dict
  if keywords.isSome && !collects then
    throw (.raised (.noKeywords slot.exposed))
  let values ← program.decodeArguments heap registry types positional
  return if collects then values ++ [.keywords keywords] else values

/-- What a slot is called on. -/
inductive CallSite where
  /-- A method on a wrapper. -/
  | wrapper (ref : Ref)
  /-- A function in the table of a module or in a capsule. -/
  | holder (ref : Ref)

/-- Run a slot and encode its result. -/
def invoke (callback : Callback) (registry : RegistryId) (slot : Slot) (site : CallSite)
    (positional : List Ref) (keywords : Option Ref) : Op Ref := do
  let heap ← Op.heap
  let values ← Op.ofExcept (program.arguments heap registry slot positional keywords)
  match slot.role, site with
  | .method owner index, .wrapper ref =>
    let method := program.method owner index
    match heap.wrapped? ref with
    | none => Op.raise (.needsReceiver slot.exposed)
    | some (receiver, _) =>
      let store := fun (value : HostValue) =>
        if method.receiver = .exclusive then Op.exchange ref [] value else Op.discard value
      let result ← Op.perform callback method.run receiver (← Op.adoptAll values) store
      (Encode.value program registry method.result result).always
        (·.releaseAll result.references)
  | .method _ _, .holder _ => Op.raise (.needsReceiver slot.exposed)
  | .function code captured, site =>
    let function := program.function code
    let store := fun (value : HostValue) =>
      match captured, site with
      | .unit, _ | _, .wrapper _ => Op.discard value
      | _, .holder ref => do
        Op.storeCaptured ref slot.id value
        Op.discard value
    let result ← Op.perform callback function.run captured (← Op.adoptAll values) store
    (Encode.value program registry function.result result).always
      (·.releaseAll result.references)
  | _, _ => Op.raise (.slotNotCallable slot.id slot.name)

/-! ## Entry points -/

/-- The slot of a bridged type. -/
def typeSlot (bridged : BridgedType) (id : Nat) : Op Slot :=
  match bridged.slots[id]? with
  | some slot => return slot
  | none => Op.raise (.typeHasNoSlot bridged.name id)

/-- A wrapper with the live registry of its type. -/
def wrapperParts (ref : Ref) : Op (Held × BridgedType × RegistryId) := do
  match (← Op.heap).wrapper? ref with
  | none => Op.raise .notAWrapper
  | some (held, bridged) => return (held, bridged, ← Op.liveRegistry bridged.registry)

/-- Run the slot that the object a function is bound to has under a number. -/
def dispatch (callback : Callback) (self : Ref) (id : Nat) (positional : List Ref)
    (keywords : Option Ref) : Op Ref := do
  let heap ← Op.heap
  let (registry, slot, site) ←
    match heap.wrapper? self, heap.moduleState? self with
    | some (_, bridged), _ => do
      let registry ← Op.liveRegistry bridged.registry
      pure (registry, ← typeSlot bridged id, CallSite.wrapper self)
    | none, some (.slotTable registry slots) => do
      let registry ← Op.liveRegistry registry
      match slots[id]? with
      | some slot => pure (registry, slot, .holder self)
      | none => Op.raise (.moduleHasNoSlot id)
    | none, some _ => Op.raise .noSlotTable
    | none, none => Op.raise (.notABridgeOwner (heap.typeName self))
  Op.note .trace s!"dispatch slot {id} ({slot.exposed})"
  program.invoke callback registry slot site positional keywords

/-- Run the slot in the capsule that a function is bound to. -/
def dispatchAdHoc (callback : Callback) (self : Ref) (positional : List Ref)
    (keywords : Option Ref) : Op Ref := do
  match (← Op.heap).capsule? self with
  | some (.adHoc registry slot) =>
    let registry ← Op.liveRegistry registry
    program.invoke callback registry slot (.holder self) positional keywords
  | _ => Op.raise .contextMissing

/-- Allocate an instance of a bridged type: a wrapper around the zero value. -/
def allocateWrapper (type : Ref) : Op Ref := do
  match (← Op.heap).bridgedType? type with
  | none => Op.raise .notABridgedType
  | some bridged =>
    let registry ← Op.liveRegistry bridged.registry
    Op.wrapCopy registry type (program.zero (.struct bridged.host))

/-- What a factory has produced, without the box around it. -/
def produced (maker : MakerDecl) (result : HostValue) : HostValue :=
  match result with
  | .boxed inner => if maker.result = .boxed maker.subject then inner else result
  | other => other

/-- Run the constructor of a bridged type on a new instance. -/
def construct (callback : Callback) (self : Ref) (positional : List Ref)
    (keywords : Option Ref) : Op Unit := do
  let (_, bridged, registry) ← wrapperParts self
  match bridged.maker with
  | none => Op.raise (.takesNoArguments bridged.name)
  | some id =>
    let slot ← typeSlot bridged id
    match slot.role with
    | .construct code =>
      let maker := program.maker code
      let heap ← Op.heap
      let values ← Op.ofExcept (program.arguments heap registry slot positional keywords)
      match heap.wrapped? self with
      | none => Op.raise .notAWrapper
      | some (fresh, _) =>
        match maker.style with
        | .receiver =>
          let result ← Op.perform callback maker.run fresh (← Op.adoptAll values)
            (Op.exchange self [])
          Op.discard result
        | .factory =>
          let result ← Op.perform callback maker.run .unit (← Op.adoptAll values) Op.discard
          Op.exchange self [] (produced maker result)
    | _ => Op.raise (.notAConstructor id)

/-- Read a field.  A field that is itself a registered struct is read as an
alias, any other field as a copy. -/
def readField (self : Ref) (id : Nat) : Op Ref := do
  let (held, bridged, registry) ← wrapperParts self
  let slot ← typeSlot bridged id
  match slot.role with
  | .get owner index =>
    let field := program.field owner index
    let handle ←
      match field.type with
      | .struct nested => Op.handle? registry nested
      | _ => pure none
    match handle with
    | some type => Op.wrapField registry type self held index
    | none =>
      match ((← Op.heap).wrapped? self).bind (·.1.field? index) with
      | some value => Encode.value program registry field.type value
      | none => Op.raise .notAWrapper
  | _ => Op.raise (.notAGetter id)

/-- Write a field.  It is left as it is if the object does not fit. -/
def writeField (self value : Ref) (id : Nat) : Op Unit := do
  let (_, bridged, registry) ← wrapperParts self
  let slot ← typeSlot bridged id
  match slot.role with
  | .set owner index =>
    let field := program.field owner index
    let heap ← Op.heap
    match (heap.wrapped? self).bind (·.1.field? index) with
    | none => Op.raise .notAWrapper
    | some old =>
      match Decode.value program heap registry field.type value old with
      | .ok new => Op.exchange self [index] (← Op.adopt new)
      | .error (.error cause) =>
        Op.raise (.fieldRefused (program.typeName field.type) bridged.name slot.exposed
          cause.message)
      | .error (.panic misuse) => Op.panic misuse
      | .error .tooDeep => throw .exhausted
  | _ => Op.raise (.notASetter id)

end Program

end HostBridge
