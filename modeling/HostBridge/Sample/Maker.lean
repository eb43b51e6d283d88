import HostBridge.Sample.Struct

/-!
# Constructors of the sample program

Receivers, which change the zero value of their type, and factories, which
return a value or a box of it.  Two of them are of neither kind; the bridge does
not accept them.
-/

namespace HostBridge.Sample

/-- A constructor that changes the zero value of a type. -/
def receiver (name : String) (subject : HostType) (parameters : List HostType)
    (run : Behaviour) : MakerDecl :=
  ⟨name, subject, .receiver, parameters, .unit, run⟩

/-- A constructor that returns a value. -/
def factory (name : String) (subject : HostType) (parameters : List HostType)
    (result : HostType) (run : Behaviour) : MakerDecl :=
  ⟨name, subject, .factory, parameters, result, run⟩

/-- A point from keyword arguments: their `x`, and how many there are. -/
def pointOfKeywords : Behaviour := fun heap _ arguments =>
  let keywords := argument arguments 0
  .returning
    (point (keywordNumber heap keywords "x" (-1)) (keywordDict heap keywords).size) .unit

/-- The chain of the numbers up to and including a bound. -/
def chainUpTo (bound : Int) : HostValue :=
  (below bound).foldr (fun value rest => .struct [word value, .present (.boxed rest)])
    (.struct [word bound, .absent])

/-- A tree in which every node down to a depth has the same number of children. -/
def fullTree : (depth fan : Nat) → HostValue
  | 0, _ => .struct [word 0, .seq []]
  | depth + 1, fan =>
    .struct [word (depth + 1), .seq (List.replicate fan (fullTree depth fan))]

/-- A full tree from depth and fan. -/
def growTree : Behaviour := computing fun arguments =>
  fullTree (numberAt arguments 0).toNat (numberAt arguments 1).toNat

/-- A point with its coordinates exchanged. -/
def transposed (value : HostValue) : HostValue := point (pointY value) (pointX value)

def pointMakers : List MakerDecl := [
  receiver "init" pointType [i64, i64] (assigning fun _ arguments => .struct arguments),
  factory "make" pointType [i64] (.boxed pointType) (computing fun arguments =>
    .boxed (point (numberAt arguments 0) (numberAt arguments 0 * 2))),
  factory "fact" pointType [i64, i64] pointType (computing fun arguments =>
    point (numberAt arguments 1) (numberAt arguments 0)),
  factory "unit" pointType [] pointType (computing fun _ => point 1 1),
  factory "origin" pointType [] pointType (computing fun _ => point 0 0),
  receiver "zero" pointType [] (assigning fun subject _ =>
    point (pointX subject - 1) (pointY subject)),
  receiver "kw" pointType [.keywords] pointOfKeywords,
  receiver "one" pointType [.seq i64] (assigning fun _ arguments =>
    let numbers := components (argument arguments 0)
    point (sum numbers) numbers.length),
  receiver "boom" pointType [.text] fun _ subject arguments =>
    .panicking (point 5 (pointY subject)) (string (argument arguments 0)),
  receiver "eight" pointType (List.replicate 8 i64) (assigning fun _ arguments =>
    point (sum (arguments.take 4)) (sum (arguments.drop 4))),
  factory "bad" pointType [i64] i64 (computing (argument · 0)),
  factory "opt" pointType [i64] (.optional pointType) (computing fun arguments =>
    .present (point (numberAt arguments 0) 0)),
  factory "mirror" pointType [pointType] pointType (computing fun arguments =>
    transposed (argument arguments 0)),
  factory "join4" pointType [i64, i64, i64, i64] pointType (computing fun arguments =>
    point (sum (arguments.take 2)) (sum (arguments.drop 2))),
  receiver "five" pointType (List.replicate 5 u8) (assigning fun subject arguments =>
    point (sum arguments) (pointY subject))]

/-- The constructors. -/
def makers : List MakerDecl := pointMakers ++ [
  factory "of" segmentType [pointType, pointType] segmentType (computing fun arguments =>
    .struct [argument arguments 0, argument arguments 1, .seq [], .absent]),
  factory "chain" nodeType [u8] (.boxed nodeType) (computing fun arguments =>
    .boxed (chainUpTo (numberAt arguments 0))),
  factory "grow" treeType [u8, u8] treeType growTree,
  receiver "init" secretType [i64, i64] (assigning fun subject arguments =>
    .struct [argument arguments 0, component subject 1, argument arguments 1]),
  receiver "three" innerType [i32, i32, i32] (assigning fun _ arguments =>
    .struct [halfWord (sum arguments)]),
  factory "make" middleType [i32, .text, u8] middleType (computing fun arguments =>
    let times := (numberAt arguments 2).toNat
    .struct [.struct [argument arguments 0],
      .text (String.join (List.replicate times (string (argument arguments 1))))]),
  receiver "init" dynType [.object] (assigning fun subject arguments =>
    let payload := argument arguments 0
    .struct [payload, component subject 1,
      .seq (components (component subject 2) ++ [payload])]),
  receiver "one" wide120Type [u8] (assigning fun subject arguments =>
    subject.setField 0 (argument arguments 0)),
  receiver "one" wide128Type [u8] (assigning fun subject arguments =>
    subject.setField 0 (argument arguments 0))]

end HostBridge.Sample
