import HostBridge.Proofs.Ownership.Export

/-!
# Requests

What code outside the bridge can ask for.  A request borrows the objects that it
names and may hand over references that the client holds; the client comes to
hold what the request ends with.  Operations that only look at the world are left
out, and so is detaching a reference, which changes nothing but its keeper.
-/

namespace HostBridge

/-- Extension data that clients attach. -/
def Payload.Foreign : Payload → Prop
  | .counter _ | .text _ => True
  | _ => False

/-- Objects that clients make from their contents. -/
def Body.Common : Body → Prop
  | .int _ | .float _ | .complex _ _ | .text _ | .bytes _ | .list _ | .tuple _ => True
  | .capsule _ payload => payload.Foreign
  | _ => False

inductive Request where
  -- references
  | retain (ref : Ref)
  | release (ref : Ref)
  | attach (thread : Thread) (detached : Detached)
  | dropDetached (thread : Thread) (detached : Detached)
  -- objects
  | create (body : Body)
  | createDict (pairs : List (Ref × Ref))
  | createModule (name doc : String)
  | createFunction (definition : MethodDef) (self : Ref)
  | createType (shape : TypeBody)
  | createInstance (type : Ref)
  | item (ref : Ref) (index : Nat)
  | setItem (ref : Ref) (index : Nat) (value : Ref)
  | append (ref value : Ref)
  | dictGet (ref name : Ref)
  | dictGetText (ref : Ref) (name : String)
  | dictSet (ref name value : Ref)
  | dictErase (ref name : Ref)
  | dictItems (ref : Ref)
  | global (ref : Ref) (name : String)
  | addObject (ref : Ref) (name : String) (value : Ref)
  | addFunction (ref : Ref) (definition : MethodDef)
  | setModuleState (ref : Ref) (state : Payload)
  | setInstanceState (ref : Ref) (state : Payload)
  | instanceType (ref : Ref)
  | getAttribute (self : Ref) (name : String)
  | hasAttribute (self : Ref) (name : String)
  | setAttribute (self : Ref) (name : String) (value : Ref)
  | call (callee : Ref) (positional : List Ref) (keywords : Option Ref)
  | callMethod (self : Ref) (name : String) (positional : List Ref)
  -- interpreters
  | start (configuration : Configuration)
  | mainModule (id : InterpreterId)
  | addModule (id : InterpreterId) (ref : Ref)
  | findModule (id : InterpreterId) (name : String)
  | announce (id : InterpreterId) (name : String)
  | setText (id : InterpreterId) (text : String)
  | setNumber (id : InterpreterId) (number : Int)
  | flush (id : InterpreterId)
  | finalize (id : InterpreterId)
  | retainInterpreter (id : InterpreterId)
  | dropInterpreter (id : InterpreterId)
  | applyManifest (manifest : Manifest)
  -- bridges
  | connect (id : InterpreterId)
  | disconnect (bridge : Bridge)
  | createBridgeModule (bridge : Bridge) (name doc : String)
  | registerType (bridge : Bridge) (type : HostType) (module : Ref) (name doc : String)
  | registerTypeWith (bridge : Bridge) (code : Nat) (module : Ref) (name doc : String)
  | registerTypeHolding (bridge : Bridge) (item : Export) (module : Ref) (name doc : String)
  | registerFunction (bridge : Bridge) (module : Ref) (item : Export) (name doc : String)
  | exportFunction (bridge : Bridge) (item : Export) (name doc : String)
  | typeOf (bridge : Bridge) (type : HostType)
  | toObject (bridge : Bridge) (type : HostType) (value : HostValue)
  | fromObject (bridge : Bridge) (type : HostType) (ref : Ref)
  | zeroValue (type : HostType)
  | callAs (bridge : Bridge) (type : HostType) (callee : Ref) (positional : List Ref)
  | copyBehind (bridge : Bridge) (type : HostType) (ref : Ref)
  | updateBehind (bridge : Bridge) (type : HostType) (ref : Ref) (update : HostValue → HostValue)

namespace Request

variable (program : Program)

/-- Carry out a request; what the client comes to hold is its result. -/
def run : Request → Op (List Ref)
  | retain ref => do return [← Op.retain ref]
  | release ref => do Op.release ref; return []
  | attach thread detached => Op.ofFunction fun world =>
    match (Op.attach thread detached).run world with
    | (.ok ref, after) => (.ok [ref], after)
    | (.error _, after) => (.ok (world.abandoned thread detached), after)
  | dropDetached thread detached => Op.ofFunction fun world =>
    (.ok (world.abandoned thread detached), world.dropDetached thread detached)
  | create body => do return [← Op.create body]
  | createDict pairs => do return [← Op.createDict pairs]
  | createModule name doc => do return [← Op.createModule name doc]
  | createFunction definition self => do return [← Op.createFunction definition self]
  | createType shape => do return [← Op.createType shape]
  | createInstance type => do return [← Op.createInstance type]
  | item ref index => do return [← Op.item ref index]
  | setItem ref index value => do Op.setItem ref index value; return []
  | append ref value => do Op.append ref value; return []
  | dictGet ref name => do return (← Op.dictGet ref name).toList
  | dictGetText ref name => do return (← Op.dictGetText ref name).toList
  | dictSet ref name value => do Op.dictSet ref name value; return []
  | dictErase ref name => do return [← Op.dictErase ref name]
  | dictItems ref => do return [← Op.dictItems ref]
  | global ref name => do return (← Op.retainOption ((← Op.heap).global? ref name)).toList
  | addObject ref name value => do Op.addObject ref name value; return []
  | addFunction ref definition => do return [← Op.addFunction ref definition]
  | setModuleState ref state => do Op.setModuleState ref state; return []
  | setInstanceState ref state => do Op.setInstanceState ref state; return []
  | instanceType ref => do return (← Op.retainOption ((← Op.heap).instanceType? ref)).toList
  | getAttribute self name => do return [← program.getAttribute self name]
  | hasAttribute self name => do let _ ← program.hasAttribute self name; return []
  | setAttribute self name value => do program.setAttribute self name value; return []
  | call callee positional keywords => do return [← program.call callee positional keywords]
  | callMethod self name positional => do return [← program.callMethod self name positional]
  | start configuration => do let _ ← Op.start configuration; return []
  | mainModule id => do return [← Op.mainModule id]
  | addModule id ref => do Op.addModule id ref; return []
  | findModule id name => do return [← Op.findModule id name]
  | announce id name => do Op.addHook id (.announce name); return []
  | setText id text => do Op.setExtensions id ({ · with text := some text }); return []
  | setNumber id number => do Op.setExtensions id ({ · with number := some number }); return []
  | flush id => do let _ ← Op.flush id; return []
  | finalize id => do Op.finalize id; return []
  | retainInterpreter id => do Op.retainInterpreter id; return []
  | dropInterpreter id => do Op.dropInterpreter id; return []
  | applyManifest manifest => do Op.applyManifest manifest; return []
  | connect id => do let _ ← Program.connect id; return []
  | disconnect bridge => do Program.disconnect bridge; return []
  | createBridgeModule bridge name doc => do return [← Program.createModule bridge name doc]
  | registerType bridge type module name doc => do
    return [← program.registerType bridge type module name doc]
  | registerTypeWith bridge code module name doc => do
    return [← program.registerTypeWith bridge code module name doc]
  | registerTypeHolding bridge exported module name doc => do
    return [← program.registerTypeHolding bridge exported module name doc]
  | registerFunction bridge module exported name doc => do
    return [← program.registerFunction bridge module exported name doc]
  | exportFunction bridge exported name doc => do
    return [← program.createFunction bridge exported name doc]
  | typeOf bridge type => do return (← Program.typeOf bridge type).toList
  | toObject bridge type value => do return [← program.toObject bridge type value]
  | fromObject bridge type ref => do
    return Program.readReferences (← program.fromObject bridge type ref)
  | zeroValue type => do return (← program.zeroValue type).references
  | callAs bridge type callee positional => do
    return Program.readReferences (← program.callAs bridge type callee positional)
  | copyBehind bridge type ref => do
    match ← Program.valueBehind bridge type ref with
    | some value => return (← Op.adopt value).references
    | none => return []
  | updateBehind bridge type ref update => do
    let _ ← Program.updateBehind bridge type ref update
    return []

/-- The references that a client hands over. -/
def spent : Request → Multiset Ref
  | release ref => {ref}
  | attach _ detached => {detached.object}
  | dropDetached _ detached => {detached.object}
  | toObject _ _ value => value.references
  | _ => 0

/-- The objects that a request names. -/
def borrowed : Request → List Ref
  | retain ref => [ref]
  | create body => body.references
  | createDict pairs => pairs.flatMap fun (key, value) => [key, value]
  | createFunction _ self => [self]
  | setItem _ _ value => [value]
  | append _ value => [value]
  | dictSet _ name value => [name, value]
  | addObject _ _ value => [value]
  | getAttribute self _ => [self]
  | hasAttribute self _ => [self]
  | setAttribute self _ value => [self, value]
  | call callee positional keywords => callee :: positional ++ keywords.toList
  | callMethod self _ positional => self :: positional
  | addModule _ ref => [ref]
  | registerTypeHolding _ exported _ _ _ => exported.captured.references
  | registerFunction _ _ exported _ _ => exported.captured.references
  | exportFunction _ exported _ _ => exported.captured.references
  | fromObject _ _ ref => [ref]
  | callAs _ _ callee positional => callee :: positional
  | _ => []

/-- What a client must keep to beyond naming real objects: handles are ones that
it has been given, and host values are of their types. -/
def Permitted (world : World) : Request → Prop
  | attach _ detached => detached.interpreter.number < world.interpreters.size
  | dropDetached _ detached => detached.interpreter.number < world.interpreters.size
  | create body => body.Common
  | createType shape => ∀ payload ∈ shape.context, payload.Foreign
  | setModuleState _ state => state.Foreign
  | setInstanceState _ state => state.Foreign
  | mainModule id => 0 < (world.interpreter id).owners
  | addModule id _ => 0 < (world.interpreter id).owners
  | findModule id _ => 0 < (world.interpreter id).owners
  | finalize id => 0 < (world.interpreter id).owners
  | retainInterpreter id => 0 < (world.interpreter id).owners
  | dropInterpreter id => 0 < (world.interpreter id).owners
  | connect id => 0 < (world.interpreter id).owners
  | disconnect bridge => 0 < (world.interpreter bridge.interpreter).owners
  | createBridgeModule bridge _ _ => 0 < (world.interpreter bridge.interpreter).owners
  | registerType bridge _ _ _ _ => bridge.registry.number < world.registries.size
  | registerTypeWith bridge _ _ _ _ => bridge.registry.number < world.registries.size
  | registerTypeHolding bridge _ _ _ _ => bridge.registry.number < world.registries.size
  | toObject _ type value => value.fits program type = true
  | updateBehind _ type _ update => ∀ value, value.Valid program world.heap type →
    (update value).Valid program world.heap type
  | _ => True

/-- A request clears a registry: it finalizes an interpreter that does so then. -/
def Clears (world : World) (registry : RegistryId) : Request → Prop
  | finalize id => world.Clears id registry
  | dropInterpreter id => (world.interpreter id).owners ≤ 1 ∧ world.Clears id registry
  | disconnect bridge => (world.interpreter bridge.interpreter).owners ≤ 1 ∧
      world.Clears bridge.interpreter registry
  | _ => False

/-- A request that a client can make: what it names are objects. -/
def Allowed (world : World) (request : Request) : Prop :=
  (∀ ref ∈ request.borrowed, ref.place < world.heap.size) ∧ request.Permitted program world

end Request

end HostBridge
