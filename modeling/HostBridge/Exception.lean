/-!
# Exceptions

An exception is a value of the object runtime: it has a class and a message,
and native code may raise any.  Those that the library itself raises are listed
here, each under the name of its cause.
-/

namespace HostBridge

/-- Exception classes. -/
inductive ExceptionKind where
  | typeError
  | runtimeError
  | attributeError
  | keyError
  | indexError
  | valueError
  | importError
  | systemError
  deriving DecidableEq, Repr

/-- The class name that the runtime shows. -/
def ExceptionKind.name : ExceptionKind → String
  | .typeError => "TypeError"
  | .runtimeError => "RuntimeError"
  | .attributeError => "AttributeError"
  | .keyError => "KeyError"
  | .indexError => "IndexError"
  | .valueError => "ValueError"
  | .importError => "ImportError"
  | .systemError => "SystemError"

/-- A raised exception. -/
structure Exception where
  kind : ExceptionKind
  message : String
  deriving DecidableEq, Repr

namespace Exception

/-- Class and message in one line. -/
def text (exception : Exception) : String :=
  exception.kind.name ++ ": " ++ exception.message

def typeError (message : String) : Exception := ⟨.typeError, message⟩

def runtimeError (message : String) : Exception := ⟨.runtimeError, message⟩

def attributeError (message : String) : Exception := ⟨.attributeError, message⟩

/-! ## What the runtime raises -/

def noLength (typeName : String) : Exception :=
  typeError s!"object of type '{typeName}' has no len()"

def notSubscriptable (typeName : String) : Exception :=
  typeError s!"'{typeName}' object is not subscriptable"

def indexOutOfRange : Exception := ⟨.indexError, "index out of range"⟩

def notAssignable (typeName : String) : Exception :=
  typeError s!"'{typeName}' object does not support item assignment"

def assignmentOutOfRange : Exception := ⟨.indexError, "list assignment index out of range"⟩

def noAttribute (typeName name : String) : Exception :=
  attributeError s!"'{typeName}' object has no attribute '{name}'"

def moduleHasNoAttribute (moduleName name : String) : Exception :=
  attributeError s!"module '{moduleName}' has no attribute '{name}'"

def notWritable (typeName name : String) : Exception :=
  attributeError s!"attribute '{name}' of '{typeName}' objects is not writable"

def readOnly (typeName name : String) : Exception :=
  attributeError s!"'{typeName}' object attribute '{name}' is read-only"

def expectedDict (typeName : String) : Exception :=
  typeError s!"expected dict, got '{typeName}'"

def unhashable (typeName : String) : Exception :=
  typeError s!"unhashable type: '{typeName}'"

/-- The message of a failed look-up is the text of the key alone. -/
def missingKey (key : String) : Exception := ⟨.keyError, key⟩

def expectedModule (typeName : String) : Exception :=
  typeError s!"expected module, got '{typeName}'"

def nameTaken (moduleName name : String) : Exception :=
  ⟨.valueError, s!"module '{moduleName}' already defines '{name}'"⟩

def moduleStateSet : Exception := runtimeError "module state is already set"

def instanceStateSet : Exception := runtimeError "instance state is already set"

def notAnInstance (typeName : String) : Exception :=
  typeError s!"'{typeName}' object is not an extension instance"

def notAllocatable (typeName : String) : Exception :=
  typeError s!"cannot allocate an instance of '{typeName}'"

def takesNoArguments (name : String) : Exception :=
  typeError s!"{name}() takes no arguments"

def notCallable (typeName : String) : Exception :=
  typeError s!"'{typeName}' object is not callable"

def keywordsNotDict (typeName : String) : Exception :=
  typeError s!"keyword arguments must be a dict, not '{typeName}'"

def moduleReleased : Exception := runtimeError "owning module has been released"

/-! ## What interpreters raise -/

def notAModule : Exception := typeError "expected module"

def moduleRegistered (name : String) : Exception :=
  ⟨.valueError, s!"module '{name}' is already registered"⟩

def noModule (name : String) : Exception := ⟨.importError, s!"no module named '{name}'"⟩

def attachedElsewhere : Exception :=
  runtimeError "detached object attached outside the interpreter thread"

def interpreterFinalized : Exception := runtimeError "interpreter has been finalized"

/-! ## What the bridge raises -/

def registryReleased : Exception := runtimeError "bridge context has been released"

def foreignModuleState : Exception :=
  runtimeError "module state belongs to another extension"

def typeHasNoSlot (typeName : String) (slot : Nat) : Exception :=
  runtimeError s!"'{typeName}' has no slot {slot}"

def noSlotTable : Exception := runtimeError "module has no bridge slot table"

def moduleHasNoSlot (slot : Nat) : Exception := runtimeError s!"module has no slot {slot}"

def notABridgeOwner (typeName : String) : Exception :=
  ⟨.systemError, s!"'{typeName}' object is not a bridge owner"⟩

def contextMissing : Exception := runtimeError "function context is missing"

def notAWrapper : Exception := runtimeError "instance is not a bridged wrapper"

def notABridgedType : Exception := runtimeError "type is not a bridged type"

def wrongCount (exposed : String) (expected given : Nat) : Exception :=
  typeError s!"{exposed} expects {expected} arguments, got {given}"

def noKeywords (exposed : String) : Exception :=
  typeError s!"{exposed} takes no keyword arguments"

def argumentRefused (argument typeName reason : String) : Exception :=
  typeError s!"failed to convert argument {argument} to {typeName}: {reason}"

def fieldRefused (typeName owner field reason : String) : Exception :=
  typeError s!"failed to convert value to {typeName} for {owner}.{field}: {reason}"

def slotNotCallable (slot : Nat) (name : String) : Exception :=
  runtimeError s!"slot {slot} ({name}) is not callable"

def needsReceiver (exposed : String) : Exception :=
  typeError s!"{exposed} needs a receiver"

def notAConstructor (slot : Nat) : Exception :=
  runtimeError s!"slot {slot} is not a constructor"

def notAGetter (slot : Nat) : Exception := runtimeError s!"slot {slot} is not a getter"

def notASetter (slot : Nat) : Exception := runtimeError s!"slot {slot} is not a setter"

end Exception

end HostBridge
