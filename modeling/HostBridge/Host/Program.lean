import HostBridge.Host.Routine
import HostBridge.Name
import HostBridge.World

/-!
# Host programs

What a host program declares for export: structs with fields and methods,
functions, constructors and native entry points.  The bridge is written for any
such program; types, functions and constructors are named by their places here.

A struct may refer to itself only through types that do not hold it directly,
so the zero value of a struct is found in as many steps as there are structs.
-/

namespace HostBridge

/-- A field of a struct. -/
structure FieldDecl where
  name : String
  type : HostType
  /-- Runtime code sees exported fields only. -/
  exported : Bool
  deriving Inhabited

/-- How a method takes its receiver. -/
inductive Receiver where
  /-- To look at. -/
  | shared
  /-- To change in place. -/
  | exclusive
  /-- As a copy of its own. -/
  | consumed
  deriving DecidableEq, Repr, Inhabited

/-- A method of a struct. -/
structure MethodDecl where
  name : String
  doc : String
  receiver : Receiver
  parameters : List HostType
  result : HostType
  run : Behaviour

instance : Inhabited MethodDecl :=
  ⟨"", "", .shared, [], .unit, fun _ subject _ => .returning subject .unit⟩

/-- A struct. -/
structure StructDecl where
  name : String
  fields : List FieldDecl
  methods : List MethodDecl
  deriving Inhabited

/-- A function, named as its declaration is. -/
structure FunctionDecl where
  name : String
  parameters : List HostType
  result : HostType
  run : Behaviour

instance : Inhabited FunctionDecl :=
  ⟨"", [], .unit, fun _ subject _ => .returning subject .unit⟩

/-- How a constructor produces an instance. -/
inductive MakerStyle where
  /-- It changes the zero value in place. -/
  | receiver
  /-- It returns the value, or a box with the value in it. -/
  | factory
  deriving DecidableEq, Repr, Inhabited

/-- A constructor of a type. -/
structure MakerDecl where
  name : String
  subject : HostType
  style : MakerStyle
  parameters : List HostType
  /-- What a factory returns. -/
  result : HostType
  run : Behaviour

instance : Inhabited MakerDecl :=
  ⟨"", .unit, .receiver, [], .unit, fun _ subject _ => .returning subject .unit⟩

/-- Native entry points under their names. -/
structure Natives where
  function : String → Ref → List Ref → Option Ref → Op Ref
  getter : String → Ref → Nat → Op Ref
  setter : String → Ref → Ref → Nat → Op Unit
  maker : String → Ref → List Ref → Option Ref → Op Unit
  allocator : String → Ref → Op Ref

/-- What a host program declares. -/
structure Program where
  structs : List StructDecl
  /-- Names of the sealed types. -/
  sealedTypes : List String
  functions : List FunctionDecl
  makers : List MakerDecl
  natives : Natives
  /-- The full name of a type. -/
  typePath : HostType → String

namespace Program

variable (program : Program)

def struct (id : StructId) : StructDecl := (program.structs[id.index]?).getD default

def function (code : Nat) : FunctionDecl := (program.functions[code]?).getD default

def maker (code : Nat) : MakerDecl := (program.makers[code]?).getD default

def method (owner : StructId) (index : Nat) : MethodDecl :=
  ((program.struct owner).methods[index]?).getD default

def field (owner : StructId) (index : Nat) : FieldDecl :=
  ((program.struct owner).fields[index]?).getD default

/-- The name of a type in messages.  Types that are made of others go by their
full name. -/
def typeName : HostType → String
  | .unit => "()"
  | .bool => "bool"
  | .int kind => kind.name
  | .float .single => "f32"
  | .float .double => "f64"
  | .complex .single => "Complex<f32>"
  | .complex .double => "Complex<f64>"
  | .text => "String"
  | .object => "Object"
  | .keywords => "KwArgs"
  | .struct id => (program.struct id).name
  | .sealed id => (program.sealedTypes[id.index]?).getD ""
  | type => program.typePath type

/-! ## Zero values -/

mutual

/-- The zero value of a type, given those of structs. -/
def zeroWith (structs : StructId → HostValue) : HostType → HostValue
  | .unit => .unit
  | .bool => .bool false
  | .int _ => .int 0
  | .float .single => .single .zero
  | .float .double => .double .zero
  | .complex .single => .complexSingle .zero .zero
  | .complex .double => .complexDouble .zero .zero
  | .text => .text ""
  | .bytes => .bytes []
  | .seq _ => .seq []
  | .map _ _ _ => .map []
  | .struct id => structs id
  | .boxed element => .boxed (zeroWith structs element)
  | .optional _ => .absent
  | .tuple elements => .tuple (zeroAllWith structs elements)
  | .object => .object .none
  | .keywords => .keywords none
  | .sealed _ => .sealed 0

/-- The zero values of a list of types. -/
def zeroAllWith (structs : StructId → HostValue) : List HostType → List HostValue
  | [] => []
  | type :: types => zeroWith structs type :: zeroAllWith structs types

end

/-- The zero value of a struct that holds structs at most `depth` deep. -/
def zeroStruct : (depth : Nat) → StructId → HostValue
  | 0, _ => .struct []
  | depth + 1, id =>
    .struct ((program.struct id).fields.map fun field =>
      zeroWith (zeroStruct depth) field.type)

/-- The zero value of a type.  Its keyword dicts do not exist yet. -/
def zero (type : HostType) : HostValue :=
  zeroWith (program.zeroStruct program.structs.length) type

/-- A host value that knows its type. -/
structure Typed where
  type : HostType
  value : HostValue

/-- Move the value out, as a value of a given type, which has to be its own.  The
zero value stays behind. -/
def take (typed : Typed) (type : HostType) : Except Misuse (HostValue × Typed) :=
  if typed.type = type then .ok (typed.value, { typed with value := program.zero type })
  else .error (.takenAs (program.typeName typed.type) (program.typePath type))

/-! ## Parameters -/

/-- The parameter types of a slot. -/
def slotParameters (slot : Slot) : List HostType :=
  match slot.role with
  | .construct code => (program.maker code).parameters
  | .method owner index => (program.method owner index).parameters
  | .function code _ => (program.function code).parameters
  | .get _ _ => []
  | .set owner index => [(program.field owner index).type]

/-- Split off a last parameter that collects keyword arguments.  Such a
parameter in any other place is an ordinary one. -/
def splitKeywords (parameters : List HostType) : List HostType × Bool :=
  if parameters.getLast? = some .keywords then (parameters.dropLast, true)
  else (parameters, false)

/-- The signature that a function shows. -/
def signature (slot : Slot) : String :=
  let (positional, keywords) := splitKeywords (program.slotParameters slot)
  let names := (List.range positional.length).map fun index => s!"arg{index}"
  let parts := names ++ (if names.isEmpty then [] else ["/"]) ++
    (if keywords then ["**kwargs"] else [])
  "(" ++ ", ".intercalate parts ++ ")"

end Program

end HostBridge
