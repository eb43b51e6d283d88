import HostBridge.Environment
import HostBridge.Exception
import HostBridge.Text.Escape

/-!
# Faults

A fault is what ends an operation early: a raised exception, which callers may
handle, or a panic, which reports a misuse that they are not meant to handle.
-/

namespace HostBridge

/-- Why an operation panics. -/
inductive Misuse where
  /-- Host code gave up with a message of its own. -/
  | hostCode (message : String)
  /-- A value of a type that the runtime cannot show. -/
  | noRuntimeForm (typeName : String)
  /-- A value that does not belong to the type it is given with. -/
  | illTyped (typeName : String)
  /-- A field of a struct that was to be read from a dict. -/
  | fieldRefused (owner field reason : String)
  /-- A type other than a struct that was to be registered. -/
  | notAStruct (typeName : String)
  | tooManySlots (typeName : String) (needed available : Nat)
  | noFreeSlot (moduleText : String)
  /-- An object that cannot hold a slot table. -/
  | noSlotTable (moduleText : String) (cause : Exception)
  | typeNotPublished (name : String) (cause : Exception)
  | functionNotPublished (name : String) (cause : Exception)
  /-- A factory that returns something else than its type. -/
  | wrongProduct (maker subject product : String)
  /-- A typed value that was moved out as a value of another type. -/
  | takenAs (typeName path : String)
  /-- Room for a batch of releases that cannot be reserved. -/
  | batchTooLarge
  /-- A variable that the process environment cannot hold. -/
  | variableRefused (name value : String) (refusal : Environment.Refusal)
  deriving DecidableEq, Repr

namespace Misuse

def message : Misuse → String
  | .hostCode message => message
  | .noRuntimeForm typeName => s!"values of type {typeName} have no runtime representation"
  | .illTyped typeName => s!"value is not of type {typeName}"
  | .fieldRefused owner field reason => s!"failed to convert value to {owner}.{field}: {reason}"
  | .notAStruct typeName =>
    s!"cannot bridge {typeName}: only structs can be registered as types"
  | .tooManySlots typeName needed available =>
    s!"{typeName} needs {needed} slots, at most {available} are available"
  | .noFreeSlot moduleText => s!"{moduleText} has no free function slot"
  | .noSlotTable moduleText cause => s!"cannot export into {moduleText}: " ++ cause.text
  | .typeNotPublished name cause => s!"cannot publish type '{name}': " ++ cause.text
  | .functionNotPublished name cause => s!"cannot publish function '{name}': " ++ cause.text
  | .wrongProduct maker subject product =>
    s!"constructor {maker} for {subject} must return it or a Box of it, not {product}"
  | .takenAs typeName path => s!"value of type {typeName} taken as {path}"
  | .batchTooLarge => "capacity overflow"
  | .variableRefused name value refusal =>
    "failed to set environment variable " ++ backquoted (doubleQuoted name) ++ " to " ++
      backquoted (doubleQuoted value) ++ ": " ++ refusal.reason

end Misuse

/-- What ends an operation before its result. -/
inductive Fault where
  | raised (exception : Exception)
  | panicked (misuse : Misuse)
  /-- The depth that was granted to nested calls is used up. -/
  | exhausted
  deriving DecidableEq, Repr

end HostBridge
