import HostBridge.Number.Binary

/-!
# Host types

The closed set of shapes that a host value can have on its way across the
bridge.  Structs and sealed types are named by their position in the
declarations of a host program, so that a type description is a finite tree
even where structs refer to each other.
-/

namespace HostBridge

-- Powers are those of the core library, whatever else is imported.
attribute [local instance (2000)] instPowNat

/-- Fixed-width integer types. -/
inductive IntKind where
  | i8 | i16 | i32 | i64 | isize
  | u8 | u16 | u32 | u64 | usize
  deriving DecidableEq, Repr, Inhabited

namespace IntKind

def name : IntKind → String
  | .i8 => "i8" | .i16 => "i16" | .i32 => "i32" | .i64 => "i64" | .isize => "isize"
  | .u8 => "u8" | .u16 => "u16" | .u32 => "u32" | .u64 => "u64" | .usize => "usize"

/-- Sizes in bits; the pointer-sized kinds have 64. -/
def width : IntKind → Nat
  | .i8 | .u8 => 8
  | .i16 | .u16 => 16
  | .i32 | .u32 => 32
  | .i64 | .u64 | .isize | .usize => 64

def signed : IntKind → Bool
  | .i8 | .i16 | .i32 | .i64 | .isize => true
  | .u8 | .u16 | .u32 | .u64 | .usize => false

/-- The least value. -/
def least (kind : IntKind) : Int :=
  if kind.signed then -(2 ^ (kind.width - 1)) else 0

/-- The greatest value. -/
def greatest (kind : IntKind) : Int :=
  if kind.signed then 2 ^ (kind.width - 1) - 1 else 2 ^ kind.width - 1

/-- Whether a kind holds a value. -/
def holds (kind : IntKind) (value : Int) : Bool :=
  kind.least ≤ value && value ≤ kind.greatest

@[simp]
theorem holds_iff {kind : IntKind} {value : Int} :
    kind.holds value = true ↔ kind.least ≤ value ∧ value ≤ kind.greatest := by
  simp [holds]

@[simp]
theorem holds_zero (kind : IntKind) : kind.holds 0 = true := by
  cases kind <;> decide

end IntKind

/-- Widths of floating point types. -/
inductive FloatWidth where
  | single
  | double
  deriving DecidableEq, Repr, Inhabited

/-- How a map type arranges its entries: sorted by key, or in no order that a
program may rely on. -/
inductive MapOrder where
  | sorted
  | unordered
  deriving DecidableEq, Repr, Inhabited

/-- A struct, by its place among the declarations. -/
structure StructId where
  index : Nat
  deriving DecidableEq, Repr, Inhabited

/-- A type that the bridge knows by name only, by its place among the declarations. -/
structure SealedId where
  index : Nat
  deriving DecidableEq, Repr, Inhabited

/-- Types of host values. -/
inductive HostType where
  | unit
  | bool
  | int (kind : IntKind)
  | float (width : FloatWidth)
  | complex (width : FloatWidth)
  | text
  | bytes
  | seq (element : HostType)
  | map (order : MapOrder) (key value : HostType)
  | struct (id : StructId)
  | boxed (element : HostType)
  | optional (element : HostType)
  | tuple (elements : List HostType)
  /-- Any runtime object, passed through as it is. -/
  | object
  /-- The keyword arguments of a call. -/
  | keywords
  /-- A type that is described but has no runtime form. -/
  | sealed (id : SealedId)
  deriving Inhabited

namespace HostType

mutual

/-- Whether two types are the same. -/
def same : HostType → HostType → Bool
  | .unit, .unit | .bool, .bool | .text, .text | .bytes, .bytes => true
  | .object, .object | .keywords, .keywords => true
  | .int left, .int right => left == right
  | .float left, .float right => left == right
  | .complex left, .complex right => left == right
  | .seq left, .seq right => left.same right
  | .map order key value, .map order' key' value' =>
    order == order' && key.same key' && value.same value'
  | .struct left, .struct right => left == right
  | .boxed left, .boxed right => left.same right
  | .optional left, .optional right => left.same right
  | .tuple left, .tuple right => sameAll left right
  | .sealed left, .sealed right => left == right
  | _, _ => false

/-- Whether two lists of types are the same. -/
def sameAll : List HostType → List HostType → Bool
  | [], [] => true
  | left :: lefts, right :: rights => left.same right && sameAll lefts rights
  | _, _ => false

end

mutual

theorem eq_of_same : ∀ {left right : HostType}, left.same right = true → left = right
  | .unit, right, h | .bool, right, h | .text, right, h | .bytes, right, h
  | .object, right, h | .keywords, right, h => by cases right <;> simp_all [same]
  | .int _, right, h | .float _, right, h | .complex _, right, h
  | .struct _, right, h | .sealed _, right, h => by cases right <;> simp_all [same]
  | .seq _, right, h | .boxed _, right, h | .optional _, right, h => by
    cases right <;> simp only [same, Bool.false_eq_true] at h
    rw [eq_of_same h]
  | .map _ _ _, right, h => by
    cases right <;> simp only [same, Bool.false_eq_true, Bool.and_eq_true, beq_iff_eq] at h
    rw [h.1.1, eq_of_same h.1.2, eq_of_same h.2]
  | .tuple _, right, h => by
    cases right <;> simp only [same, Bool.false_eq_true] at h
    rw [eq_of_sameAll h]

theorem eq_of_sameAll : ∀ {lefts rights : List HostType},
    sameAll lefts rights = true → lefts = rights
  | [], rights, h => by cases rights <;> simp_all [sameAll]
  | _ :: _, rights, h => by
    cases rights <;> simp only [sameAll, Bool.false_eq_true, Bool.and_eq_true] at h
    rw [eq_of_same h.1, eq_of_sameAll h.2]

end

mutual

@[simp]
theorem same_refl : ∀ type : HostType, type.same type = true
  | .unit | .bool | .text | .bytes | .object | .keywords => by simp [same]
  | .int _ | .float _ | .complex _ | .struct _ | .sealed _ => by simp [same]
  | .seq element | .boxed element | .optional element => by simp [same, same_refl element]
  | .map _ key value => by simp [same, same_refl key, same_refl value]
  | .tuple elements => by simp [same, sameAll_refl elements]

theorem sameAll_refl : ∀ types : List HostType, sameAll types types = true
  | [] => by simp [sameAll]
  | type :: types => by simp [sameAll, same_refl type, sameAll_refl types]

end

instance : DecidableEq HostType := fun left right =>
  if h : left.same right = true then .isTrue (eq_of_same h)
  else .isFalse fun equal => h (equal ▸ same_refl left)

/-- A type without one box around it. -/
def unboxed : HostType → HostType
  | .boxed element => element
  | type => type

/-- The struct that a type holds directly or behind boxes and optionals. -/
def nested? : HostType → Option StructId
  | .struct id => some id
  | .boxed element => element.nested?
  | .optional element => element.nested?
  | _ => none

end HostType

end HostBridge
