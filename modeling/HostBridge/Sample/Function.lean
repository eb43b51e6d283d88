import HostBridge.Sample.Maker

/-!
# Functions of the sample program

Free functions over all kinds of parameters and results, and closures, which
work on the state that they have captured.
-/

namespace HostBridge.Sample

/-! ## Code -/

/-- The quotient toward zero and the remainder, of a divisor that is not zero. -/
def divMod : Behaviour := fun _ subject arguments =>
  let dividend := numberAt arguments 0
  let divisor := numberAt arguments 1
  if divisor = 0 then .panicking subject "division by zero"
  else .returning subject (.tuple [word (dividend.tdiv divisor), word (dividend.tmod divisor)])

/-- All that can be learned from keyword arguments. -/
def surveyKeywords : Behaviour := fun heap subject arguments =>
  let table := keywordDict heap (argument arguments 1)
  .returning subject (.tuple [argument arguments 0, word table.size, .bool (table.size == 0),
    .bool (table.contains (.text "x")),
    match table.get? (.text "x") with
    | some ref => .present (.object ref)
    | none => .absent,
    .seq (table.entries.map fun entry => .tuple [.object entry.key, .object entry.value])])

/-- How many keyword arguments there are, and a number more. -/
def countKeywords (heap : Heap) (keywords : HostValue) (more : Int) : HostValue :=
  word ((keywordDict heap keywords).size + more)

/-- Call an object with an argument; an exception becomes its text. -/
def callObject : Behaviour := fun _ subject arguments =>
  match arguments with
  | [.object callee, .object value] =>
    .call callee [value] fun _ result =>
      match result with
      | .ok ref => .returning subject (.object ref)
      | .error exception =>
        .makeText exception.text fun ref => .returning subject (.object ref)
  | _ => .returning subject .unit

/-- Half of a number of single precision. -/
def halved : HostValue → HostValue
  | .single value =>
    if value.isNaN || value.isInfinite then .single value
    else .single (.ofScaled value.negative value.significand (value.scale - 1))
  | value => value

/-- A complex number with its imaginary part negated. -/
def conjugate : HostValue → HostValue
  | .complexDouble real imaginary => .complexDouble real imaginary.neg
  | value => value

/-- Bytes in reverse order. -/
def reversed : HostValue → HostValue
  | .bytes value => .bytes value.reverse
  | value => value

/-- The word in a sealed value. -/
def sealedWord : HostValue → HostValue
  | .sealed content => word content
  | _ => word 0

/-- One more than the number in an optional. -/
def incremented : HostValue → HostValue
  | .present value => .present (word (number value + 1))
  | value => value

mutual

/-- The sum of the numbers in a tree. -/
def treeSum : HostValue → Int
  | .struct [value, .seq children] => number value + forestSum children
  | _ => 0

/-- The sum of the numbers in a list of trees. -/
def forestSum : List HostValue → Int
  | [] => 0
  | tree :: trees => treeSum tree + forestSum trees

end

/-- How far a segment reaches, and how many tags it has. -/
def segmentExtent (segment : HostValue) : HostValue :=
  let start := component segment 0
  let stop := component segment 1
  .tuple [word (pointX stop - pointX start), word (pointY stop - pointY start),
    word (components (component segment 2)).length]

/-- Add to the captured number; the sum is captured in its place. -/
def count : Behaviour := updating fun captured arguments =>
  let total := word (number captured + numberAt arguments 0)
  (total, total)

/-! ## Declarations -/

/-- Functions of numbers and text. -/
def scalarFunctions : List FunctionDecl := [
  ⟨"add_all", [i64, i64, i64], i64, computing fun arguments => word (sum arguments)⟩,
  ⟨"ident_i64", [i64], i64, computing (argument · 0)⟩,
  ⟨"AddTwo", [i64, i64], i64, computing fun arguments => word (sum arguments)⟩,
  ⟨"greet", [.text], .text, computing fun arguments =>
    .text ("hi " ++ string (argument arguments 0))⟩,
  ⟨"div_mod", [i64, i64], .tuple [i64, i64], divMod⟩,
  ⟨"noop", [], .unit, computing fun _ => .unit⟩,
  ⟨"boom", [.text], .unit, fun _ subject arguments =>
    .panicking subject (string (argument arguments 0))⟩,
  ⟨"bytes_rev", [.bytes], .bytes, computing fun arguments => reversed (argument arguments 0)⟩,
  ⟨"conj", [.complex .double], .complex .double, computing fun arguments =>
    conjugate (argument arguments 0)⟩,
  ⟨"half", [f32], f32, computing fun arguments => halved (argument arguments 0)⟩,
  ⟨"both", [.bool, .bool], .bool, computing fun arguments =>
    .bool (truth (argument arguments 0) && truth (argument arguments 1))⟩,
  ⟨"unit_in", [.unit], .unit, computing fun _ => .unit⟩,
  ⟨"opt_in", [.optional i64], .optional i64, computing fun arguments =>
    incremented (argument arguments 0)⟩,
  ⟨"join4", [.text, .text, .text, .text], .text, computing fun arguments =>
    .text ("-".intercalate (arguments.map string))⟩,
  ⟨"five", [u8, u8, u8, u8, u8], u64, computing fun arguments => .int (sum arguments)⟩,
  ⟨"six", [.bool, i8, u16, f32, .text, .bytes], .tuple [.bool, i8, u16, f32, .text, .bytes],
    computing .tuple⟩,
  ⟨"seven", List.replicate 7 i64, .seq i64, computing fun arguments => .seq arguments.reverse⟩,
  ⟨"narrow", [i8, i16, i32, i64, u8, u16, u32, u64],
    .tuple [i8, i16, i32, i64, u8, u16, u32, u64], computing .tuple⟩]

/-- Functions of points, containers and other records. -/
def recordFunctions : List FunctionDecl := [
  ⟨"ident_vec", [.seq pointType], .seq pointType, computing (argument · 0)⟩,
  ⟨"norm1", [pointType], i64, computing fun arguments =>
    let value := argument arguments 0
    word ((pointX value).natAbs + (pointY value).natAbs)⟩,
  ⟨"mirror", [pointType], pointType, computing fun arguments =>
    transposed (argument arguments 0)⟩,
  ⟨"make_points", [u8], .seq pointType, computing fun arguments =>
    .seq ((below (numberAt arguments 0)).map fun step => point step (step * step))⟩,
  ⟨"opt_point", [.bool], .optional (.boxed pointType), computing fun arguments =>
    presentIf (truth (argument arguments 0)) (.boxed (point 1 2))⟩,
  ⟨"sum_list", [.seq i64], i64, computing fun arguments =>
    word (sum (components (argument arguments 0)))⟩,
  ⟨"sum_map", [.map .sorted .text i64], .tuple [i64, .seq .text], computing fun arguments =>
    .tuple [word (mapTotal (argument arguments 0)),
      .seq ((mapEntries (argument arguments 0)).map (·.1))]⟩,
  ⟨"hash_total", [.map .unordered .text i64], i64, computing fun arguments =>
    word (mapTotal (argument arguments 0))⟩,
  ⟨"opaque_out", [], handleType, computing fun _ => .sealed 7⟩,
  ⟨"opaque_in", [handleType], i64, computing fun arguments =>
    sealedWord (argument arguments 0)⟩,
  ⟨"tree_sum", [treeType], i64, computing fun arguments =>
    word (treeSum (argument arguments 0))⟩,
  ⟨"tree_grow", [u8, u8], treeType, growTree⟩,
  ⟨"seg_len", [segmentType], .tuple [i64, i64, i64], computing fun arguments =>
    segmentExtent (argument arguments 0)⟩,
  ⟨"origin", [], pointType, computing fun _ => point 0 0⟩,
  ⟨"perimeter", [pointType], i64, computing fun arguments =>
    let value := argument arguments 0
    word ((pointX value + pointY value) * 2)⟩]

/-- Functions of runtime objects and keyword arguments. -/
def objectFunctions : List FunctionDecl := [
  ⟨"kw_only", [.keywords], i64, fun heap subject arguments =>
    .returning subject (countKeywords heap (argument arguments 0) 0)⟩,
  ⟨"kw_after", [.text, .keywords],
    .tuple [.text, i64, .bool, .bool, .optional .object, .seq (.tuple [.object, .object])],
    surveyKeywords⟩,
  ⟨"kw_mid", [.keywords, i64], i64, fun heap subject arguments =>
    .returning subject (countKeywords heap (argument arguments 0) (numberAt arguments 1))⟩,
  ⟨"kw_two", [.keywords, .keywords], .tuple [.keywords, .keywords], computing .tuple⟩,
  ⟨"kw_back", [.keywords], .keywords, computing (argument · 0)⟩,
  ⟨"pass", [.object], .object, computing (argument · 0)⟩,
  ⟨"pair_objs", [.object, .object], .tuple [.object, .object], computing fun arguments =>
    .tuple arguments.reverse⟩,
  ⟨"call_it", [.object, .object], .object, callObject⟩]

/-- Closures; the number that they have captured is the value that they work on. -/
def closures : List FunctionDecl := [
  ⟨"adder", [i64], i64, observing fun captured arguments =>
    word (number captured + numberAt arguments 0)⟩,
  ⟨"counter", [i64], i64, count⟩,
  ⟨"tripler", [i64], i64, computing fun arguments => word (numberAt arguments 0 * 3)⟩,
  ⟨"doubler", [i64], .seq i64, computing fun arguments => .seq (arguments ++ arguments)⟩,
  ⟨"pred", [i64], i64, computing fun arguments => word (numberAt arguments 0 - 1)⟩,
  ⟨"linear", [i64], i64, observing fun captured arguments =>
    word (numberAt arguments 0 * 1000 + number captured)⟩]

/-- The functions. -/
def functions : List FunctionDecl :=
  scalarFunctions ++ recordFunctions ++ objectFunctions ++ closures

end HostBridge.Sample
