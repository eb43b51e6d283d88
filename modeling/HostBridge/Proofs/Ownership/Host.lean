import HostBridge.Proofs.Codec.Reading

/-!
# Host code that can be trusted

The host language promises two things of the code that the bridge runs.  Values
are of their declared types: a method leaves a value of its struct behind, and
every result is one of the declared type.  And references are not forged: what
host code hands on it has been given, so it names a place of the heap.

Native entry points work with counted references and are promised to count them.
-/

namespace HostBridge

variable (program : Program)

/--
A routine that hands on what it has been given.  It runs in a heap with at least
`places` places, leaves a value of which `remains` holds, and ends with a result
of a type.
-/
inductive Routine.Honest (remains : HostValue → Prop) (type : HostType) : Nat → Routine → Prop
  | ended {places : Nat} {outcome : Outcome} (left : remains outcome.subject)
      (used : ∀ ref ∈ outcome.subject.references, ref.place < places)
      (fit : ∀ value, outcome.result = .ok value → value.fits program type = true)
      (resultUsed : ∀ value, outcome.result = .ok value →
        ∀ ref ∈ value.references, ref.place < places) :
    Honest remains type places (.ended outcome)
  | makeText {places : Nat} {text : String} {resume : Ref → Routine}
      (later : ∀ ref more, places ≤ more → ref.place < more →
        Honest remains type more (resume ref)) :
    Honest remains type places (.makeText text resume)
  | call {places : Nat} {callee : Ref} {arguments : List Ref}
      {resume : Heap → Except Exception Ref → Routine} (calleeUsed : callee.place < places)
      (used : ∀ ref ∈ arguments, ref.place < places)
      (returned : ∀ heap ref, places ≤ heap.size → ref.place < heap.size →
        Honest remains type heap.size (resume heap (.ok ref)))
      (raised : ∀ heap exception, places ≤ heap.size →
        Honest remains type heap.size (resume heap (.error exception))) :
    Honest remains type places (.call callee arguments resume)

/-- A routine that runs without a call into the runtime. -/
inductive Routine.Quiet : Routine → Prop
  | ended (outcome : Outcome) : Quiet (.ended outcome)
  | makeText {text : String} {resume : Ref → Routine} (later : ∀ ref, Quiet (resume ref)) :
    Quiet (.makeText text resume)

/-- Host code that touches only what it is given. -/
def Behaviour.Quiet (run : Behaviour) : Prop :=
  ∀ heap subject arguments, (run heap subject arguments).Quiet

/-- Host code that runs such routines on values and arguments of its types. -/
def Behaviour.Honest (remains : HostValue → Prop) (parameters : List HostType) (type : HostType)
    (run : Behaviour) : Prop :=
  ∀ heap subject arguments, remains subject → (∀ ref ∈ subject.references, ref.place < heap.size) →
    HostValue.ValidAll program heap parameters arguments →
      (run heap subject arguments).Honest program remains type heap.size

/-- A native entry point that runs in any world from borrowed references. -/
def Op.CountsWithin {α : Type} (touch : Permission) (action : Op α) (borrowed : List Ref)
    (given : α → Multiset Ref) : Prop :=
  ∀ world, (∀ ref ∈ borrowed, ref.place < world.heap.size) →
    Op.Runs program touch action world 0 given fun _ _ => True

/-- A native entry point that may change anything. -/
def Op.Counts {α : Type} (action : Op α) (borrowed : List Ref) (given : α → Multiset Ref) : Prop :=
  action.CountsWithin program Permission.anything borrowed given

/-- What the host language promises of a program. -/
structure Program.Honest : Prop where
  founded : program.Founded
  method : ∀ owner index,
    (program.method owner index).run.Honest program
      (fun subject => subject.fits program (.struct owner) = true)
      (program.method owner index).parameters (program.method owner index).result
  function : ∀ code,
    (program.function code).run.Honest program (fun _ => True) (program.function code).parameters
      (program.function code).result
  /-- A constructor that works in place leaves a value of its type. -/
  receiver : ∀ code, (program.maker code).style = .receiver →
    (program.maker code).run.Honest program
      (fun subject => subject.fits program (program.maker code).subject.unboxed = true)
      (program.maker code).parameters (program.maker code).result
  factory : ∀ code, (program.maker code).style = .factory →
    (program.maker code).run.Honest program (fun _ => True) (program.maker code).parameters
      (program.maker code).result
  /-- A factory makes values of a struct. -/
  product : ∀ code, (program.maker code).style = .factory →
    (program.maker code).subject.unboxed = (program.maker code).subject
  nativeFunction : ∀ name self positional keywords,
    (program.natives.function name self positional keywords).Counts program
      (self :: positional ++ keywords.toList) fun ref => {ref}
  nativeGetter : ∀ name self closure,
    (program.natives.getter name self closure).Counts program [self] fun ref => {ref}
  nativeSetter : ∀ name self value closure,
    (program.natives.setter name self value closure).Counts program [self, value] fun _ => 0
  nativeMaker : ∀ name self positional keywords,
    (program.natives.maker name self positional keywords).Counts program
      (self :: positional ++ keywords.toList) fun _ => 0
  nativeAllocator : ∀ name type,
    (program.natives.allocator name type).Counts program [type] fun ref => {ref}

/-- A permission that covers the calls of a program: all contents may change, and what
its native entry points do is permitted. -/
structure Program.Confined (touch : Permission) : Prop where
  contents : ∀ body, touch body
  nativeFunction : ∀ name self positional keywords,
    (program.natives.function name self positional keywords).CountsWithin program touch
      (self :: positional ++ keywords.toList) fun ref => {ref}
  nativeGetter : ∀ name self closure,
    (program.natives.getter name self closure).CountsWithin program touch [self] fun ref => {ref}
  nativeSetter : ∀ name self value closure,
    (program.natives.setter name self value closure).CountsWithin program touch [self, value]
      fun _ => 0
  nativeMaker : ∀ name self positional keywords,
    (program.natives.maker name self positional keywords).CountsWithin program touch
      (self :: positional ++ keywords.toList) fun _ => 0
  nativeAllocator : ∀ name type,
    (program.natives.allocator name type).CountsWithin program touch [type] fun ref => {ref}

variable {program}

theorem Program.Honest.confined (honest : program.Honest) :
    program.Confined Permission.anything where
  contents _ := trivial
  nativeFunction := honest.nativeFunction
  nativeGetter := honest.nativeGetter
  nativeSetter := honest.nativeSetter
  nativeMaker := honest.nativeMaker
  nativeAllocator := honest.nativeAllocator

end HostBridge
