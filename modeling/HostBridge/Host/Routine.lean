import HostBridge.Exception
import HostBridge.Object.Heap

/-!
# Host routines

The code of a host function, as far as the bridge can tell: it computes with
values, looks at runtime objects, and from time to time asks the runtime to call
an object or to make a text.  It ends with a result or a panic; both times it
leaves behind the value that it worked on, which is the receiver of a method,
the instance of a constructor or the captured state of a closure.

A routine borrows all references that it is given, and those that it returns
are counted by the caller.  So no routine can upset the count of references.
-/

namespace HostBridge

/-- How a routine ends. -/
structure Outcome where
  /-- The value that the routine worked on, as it leaves it. -/
  subject : HostValue
  /-- The result, or the message of a panic. -/
  result : Except String HostValue

/-- A course of interactions with the runtime. -/
inductive Routine where
  | ended (outcome : Outcome)
  /-- Call an object and go on with its result or with the exception it raised. -/
  | call (callee : Ref) (arguments : List Ref)
      (resume : Heap → Except Exception Ref → Routine)
  /-- Make a text object and go on with it. -/
  | makeText (text : String) (resume : Ref → Routine)

namespace Routine

/-- End with a result. -/
def returning (subject result : HostValue) : Routine := .ended ⟨subject, .ok result⟩

/-- End with a panic. -/
def panicking (subject : HostValue) (message : String) : Routine :=
  .ended ⟨subject, .error message⟩

end Routine

/-- Host code: what it does with the value that it works on and its arguments. -/
abbrev Behaviour := Heap → HostValue → List HostValue → Routine

end HostBridge
