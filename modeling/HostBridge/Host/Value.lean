import HostBridge.Host.Type
import HostBridge.Object.Ref

/-!
# Host values

A host value as the bridge sees it.  A struct value holds all of its fields,
those that are not exported included.  Runtime objects inside a value are held
by reference; `HostValue.references` lists them in the order in which a value
that goes away gives them up.

The entries of a map are kept in ascending order of their keys, whatever order
its type promises, so that equal maps are equal values.

A place inside a struct value is a path of field positions.  The laws at the
end say that writing at a path is read back there and nowhere else.
-/

namespace HostBridge

/-- Values of host types. -/
inductive HostValue where
  | unit
  | bool (value : Bool)
  | int (value : Int)
  | single (value : Binary32)
  | double (value : Binary64)
  | complexSingle (real imaginary : Binary32)
  | complexDouble (real imaginary : Binary64)
  | text (value : String)
  | bytes (value : List UInt8)
  | seq (elements : List HostValue)
  | map (entries : List (HostValue × HostValue))
  | struct (fields : List HostValue)
  | boxed (value : HostValue)
  /-- An optional without a payload. -/
  | absent
  /-- An optional with a payload. -/
  | present (value : HostValue)
  | tuple (elements : List HostValue)
  | object (ref : Ref)
  /-- Keyword arguments; `none` is an empty dict that does not exist yet. -/
  | keywords (dict : Option Ref)
  /-- A value of a sealed type, as far as a host program tells it. -/
  | sealed (word : Nat)
  deriving Inhabited

namespace HostValue

mutual

/-- The runtime objects that a value holds, in order. -/
def references : HostValue → List Ref
  | .object ref => [ref]
  | .keywords dict => dict.toList
  | .seq elements => referencesAll elements
  | .struct fields => referencesAll fields
  | .tuple elements => referencesAll elements
  | .map entries => referencesEntries entries
  | .boxed value => value.references
  | .present value => value.references
  | _ => []

/-- The runtime objects that the values of a list hold. -/
def referencesAll : List HostValue → List Ref
  | [] => []
  | value :: values => value.references ++ referencesAll values

/-- The runtime objects that the entries of a map hold. -/
def referencesEntries : List (HostValue × HostValue) → List Ref
  | [] => []
  | (key, value) :: entries => key.references ++ value.references ++ referencesEntries entries

end

@[simp]
theorem referencesAll_append (left right : List HostValue) :
    referencesAll (left ++ right) = referencesAll left ++ referencesAll right := by
  induction left with
  | nil => rfl
  | cons value values ih => simp [referencesAll, ih]

/-! ## The order of keys -/

/-- Lexicographic order of byte strings. -/
def compareBytes : List UInt8 → List UInt8 → Ordering
  | [], [] => .eq
  | [], _ :: _ => .lt
  | _ :: _, [] => .gt
  | left :: lefts, right :: rights =>
    (compare left.toNat right.toNat).then (compareBytes lefts rights)

/-- Keyword dicts in the order of their places, one that does not exist yet first. -/
def compareDicts : Option Ref → Option Ref → Ordering
  | none, none => .eq
  | none, some _ => .lt
  | some _, none => .gt
  | some left, some right => compare left.place right.place

/-- The place of the kind of a value in the order of values of different kinds. -/
def rank : HostValue → Nat
  | .unit => 0
  | .bool _ => 1
  | .int _ => 2
  | .single _ => 3
  | .double _ => 4
  | .complexSingle _ _ => 5
  | .complexDouble _ _ => 6
  | .text _ => 7
  | .bytes _ => 8
  | .seq _ => 9
  | .map _ => 10
  | .struct _ => 11
  | .boxed _ => 12
  | .absent => 13
  | .present _ => 14
  | .tuple _ => 15
  | .object _ => 16
  | .keywords _ => 17
  | .sealed _ => 18

mutual

/-- The order of host values: whole numbers by value, floating point numbers by
their words, text by code points, containers lexicographically, an absent
payload first. -/
def order : HostValue → HostValue → Ordering
  | .bool left, .bool right => compare left.toNat right.toNat
  | .int left, .int right => compare left right
  | .single left, .single right => compare left.word right.word
  | .double left, .double right => compare left.word right.word
  | .complexSingle real imaginary, .complexSingle real' imaginary' =>
    (compare real.word real'.word).then (compare imaginary.word imaginary'.word)
  | .complexDouble real imaginary, .complexDouble real' imaginary' =>
    (compare real.word real'.word).then (compare imaginary.word imaginary'.word)
  | .text left, .text right => compareOfLessAndEq left right
  | .bytes left, .bytes right => compareBytes left right
  | .seq left, .seq right => orderAll left right
  | .map left, .map right => orderEntries left right
  | .struct left, .struct right => orderAll left right
  | .boxed left, .boxed right => left.order right
  | .present left, .present right => left.order right
  | .tuple left, .tuple right => orderAll left right
  | .object left, .object right => compare left.place right.place
  | .keywords left, .keywords right => compareDicts left right
  | .sealed left, .sealed right => compare left right
  | left, right => compare left.rank right.rank

/-- Lexicographic order of lists of values. -/
def orderAll : List HostValue → List HostValue → Ordering
  | [], [] => .eq
  | [], _ :: _ => .lt
  | _ :: _, [] => .gt
  | left :: lefts, right :: rights => (left.order right).then (orderAll lefts rights)

/-- Lexicographic order of the entries of maps. -/
def orderEntries :
    List (HostValue × HostValue) → List (HostValue × HostValue) → Ordering
  | [], [] => .eq
  | [], _ :: _ => .lt
  | _ :: _, [] => .gt
  | (key, value) :: lefts, (key', value') :: rights =>
    ((key.order key').then (value.order value')).then (orderEntries lefts rights)

end

/-- Put an entry into a map; an entry with an equal key is replaced. -/
def insertEntry (key value : HostValue) :
    List (HostValue × HostValue) → List (HostValue × HostValue)
  | [] => [(key, value)]
  | (name, old) :: rest =>
    match key.order name with
    | .lt => (key, value) :: (name, old) :: rest
    | .eq => (key, value) :: rest
    | .gt => (name, old) :: insertEntry key value rest

/-! ## Places inside struct values -/

/-- The field at a position. -/
def field? : HostValue → Nat → Option HostValue
  | .struct fields, index => fields[index]?
  | _, _ => none

/-- Replace the field at a position. -/
def setField : HostValue → Nat → HostValue → HostValue
  | .struct fields, index, value => .struct (fields.set index value)
  | other, _, _ => other

/-- The value at a path of field positions. -/
def at? (value : HostValue) : List Nat → Option HostValue
  | [] => some value
  | index :: path =>
    match value.field? index with
    | some field => field.at? path
    | none => none

/-- Replace the value at a path of field positions. -/
def put (value : HostValue) : List Nat → HostValue → HostValue
  | [], new => new
  | index :: path, new =>
    match value.field? index with
    | some field => value.setField index (field.put path new)
    | none => value

@[simp]
theorem at?_nil (value : HostValue) : value.at? [] = some value := rfl

@[simp]
theorem put_nil (value new : HostValue) : value.put [] new = new := rfl

theorem field?_setField_same {value old : HostValue} {index : Nat} (new : HostValue)
    (present : value.field? index = some old) :
    (value.setField index new).field? index = some new := by
  cases value with
  | struct fields =>
    have inside : index < fields.length := (List.getElem?_eq_some_iff.mp present).1
    simp [setField, field?, inside]
  | _ => simp [field?] at present

theorem field?_setField_other (value new : HostValue) {index other : Nat}
    (distinct : index ≠ other) :
    (value.setField index new).field? other = value.field? other := by
  cases value <;> simp [setField, field?, distinct]

/-- What is written at a path is read there. -/
theorem at?_put_same {value old : HostValue} {path : List Nat} (new : HostValue)
    (present : value.at? path = some old) : (value.put path new).at? path = some new := by
  induction path generalizing value with
  | nil => rfl
  | cons index path ih =>
    simp only [at?] at present
    cases reading : value.field? index with
    | none => simp [reading] at present
    | some field =>
      simp only [reading] at present
      simp only [put, reading, at?, field?_setField_same _ reading]
      exact ih present

/-- The value at an extended path lies inside the value at the path. -/
theorem at?_append (value : HostValue) (front back : List Nat) :
    value.at? (front ++ back) = (value.at? front).bind (·.at? back) := by
  induction front generalizing value with
  | nil => rfl
  | cons index front ih =>
    simp only [List.cons_append, at?]
    cases value.field? index with
    | none => rfl
    | some field => exact ih field

end HostValue

end HostBridge
