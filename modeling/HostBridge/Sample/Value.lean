import HostBridge.Host.Program
import HostBridge.Object.Inspect

/-!
# Values of the sample program

The sample program has something of every kind that a host program can export.
This module names its structs and reads and builds their values.  Readers are
total: where a value has another shape they give a zero, and the bridge never
hands such a value to the code of the program.

Whole numbers of the program have 64 bits and wrap.
-/

namespace HostBridge.Sample

-- Powers are those of the core library, whatever else is imported.
attribute [local instance (2000)] instPowNat

/-! ## Names -/

abbrev i8 : HostType := .int .i8

abbrev i16 : HostType := .int .i16

abbrev i32 : HostType := .int .i32

abbrev i64 : HostType := .int .i64

abbrev u8 : HostType := .int .u8

abbrev u16 : HostType := .int .u16

abbrev u32 : HostType := .int .u32

abbrev u64 : HostType := .int .u64

abbrev f32 : HostType := .float .single

abbrev f64 : HostType := .float .double

abbrev pointType : HostType := .struct ⟨0⟩

abbrev metaType : HostType := .struct ⟨1⟩

abbrev segmentType : HostType := .struct ⟨2⟩

abbrev innerType : HostType := .struct ⟨5⟩

abbrev middleType : HostType := .struct ⟨6⟩

abbrev secretType : HostType := .struct ⟨8⟩

abbrev emptyType : HostType := .struct ⟨11⟩

abbrev dynType : HostType := .struct ⟨13⟩

abbrev nodeType : HostType := .struct ⟨15⟩

abbrev treeType : HostType := .struct ⟨16⟩

abbrev pingType : HostType := .struct ⟨17⟩

abbrev pongType : HostType := .struct ⟨18⟩

abbrev wide120Type : HostType := .struct ⟨19⟩

abbrev wide128Type : HostType := .struct ⟨20⟩

abbrev handleType : HostType := .sealed ⟨0⟩

/-! ## Reading -/

/-- The value at an index of a list. -/
def argument (values : List HostValue) (index : Nat) : HostValue := (values[index]?).getD .unit

def number : HostValue → Int
  | .int value => value
  | _ => 0

def string : HostValue → String
  | .text value => value
  | _ => ""

def truth : HostValue → Bool
  | .bool value => value
  | _ => false

/-- The number in an optional, zero if there is none. -/
def optionalNumber : HostValue → Int
  | .present value => number value
  | _ => 0

/-- What a struct, a sequence or a tuple is made of, also inside a box. -/
def components : HostValue → List HostValue
  | .struct fields => fields
  | .seq elements => elements
  | .tuple elements => elements
  | .boxed value => components value
  | _ => []

/-- A component of a value. -/
def component (value : HostValue) (index : Nat) : HostValue := argument (components value) index

/-- The number at an index of a list. -/
def numberAt (values : List HostValue) (index : Nat) : Int := number (argument values index)

/-- The sum of a list of numbers. -/
def sum (values : List HostValue) : Int :=
  values.foldl (fun total value => total + number value) 0

/-- The entries of a map. -/
def mapEntries : HostValue → List (HostValue × HostValue)
  | .map entries => entries
  | _ => []

/-- The sum of the values of a map. -/
def mapTotal (value : HostValue) : Int := sum ((mapEntries value).map (·.2))

/-! ## Building -/

/-- A number, reduced to 64 bits. -/
def wrap (value : Int) : Int := Int.bmod value (2 ^ (64 : Nat))

/-- A number of 64 bits. -/
def word (value : Int) : HostValue := .int (wrap value)

/-- A number of 32 bits. -/
def halfWord (value : Int) : HostValue := .int (Int.bmod value (2 ^ (32 : Nat)))

/-- The numbers below a bound. -/
def below (bound : Int) : List Int := (List.range bound.toNat).map Int.ofNat

/-- A present optional under a condition. -/
def presentIf (condition : Bool) (value : HostValue) : HostValue :=
  if condition then .present value else .absent

def point (x y : Int) : HostValue := .struct [word x, word y]

def pointX (value : HostValue) : Int := number (component value 0)

def pointY (value : HostValue) : Int := number (component value 1)

/-! ## Keyword arguments -/

/-- The dict of keyword arguments. -/
def keywordDict (heap : Heap) : HostValue → Dict
  | .keywords (some dict) => (heap.dict? dict).getD .empty
  | _ => .empty

/-- The value of a keyword argument. -/
def keyword? (heap : Heap) (keywords : HostValue) (name : String) : Option Ref :=
  (keywordDict heap keywords).get? (.text name)

/-- The number given as a keyword argument, or a default. -/
def keywordNumber (heap : Heap) (keywords : HostValue) (name : String) (default : Int) : Int :=
  match (keyword? heap keywords name).map heap.body with
  | some (.int value) => value
  | _ => default

/-! ## Behaviours -/

/-- Code that depends on its arguments only. -/
def computing (result : List HostValue → HostValue) : Behaviour :=
  fun _ subject arguments => .returning subject (result arguments)

/-- Code that looks at the value that it works on. -/
def observing (result : HostValue → List HostValue → HostValue) : Behaviour :=
  fun _ subject arguments => .returning subject (result subject arguments)

/-- Code that changes the value that it works on, and has a result. -/
def updating (result : HostValue → List HostValue → HostValue × HostValue) : Behaviour :=
  fun _ subject arguments =>
    let (subject, result) := result subject arguments
    .returning subject result

/-- Code that only changes the value that it works on. -/
def assigning (result : HostValue → List HostValue → HostValue) : Behaviour :=
  fun _ subject arguments => .returning (result subject arguments) .unit

end HostBridge.Sample
