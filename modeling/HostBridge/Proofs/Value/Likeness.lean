import Mathlib
import HostBridge.Bridge.Wrapper
import HostBridge.Proofs.Number.Widening
import HostBridge.Proofs.Value.Order

/-!
# Values that are alike

Host code cannot tell one NaN from another, so two values are alike if they are
equal after all NaNs in them have been made one.  The keys of a map are found by
what they are, and have to be the same.

A value that host code holds is regular: its keyword dicts exist, and the entries
of its maps are in ascending order, which is how a map is written down here.
-/

namespace HostBridge

namespace Binary32

/-- A number, with one NaN for all. -/
def unified (number : Binary32) : Binary32 := if number.isNaN then ⟨0x7FC00000⟩ else number

/-- A number that is widened and narrowed again stays a NaN or stays as it is. -/
theorem unified_toBinary32_toBinary64 (number : Binary32) :
    number.toBinary64.toBinary32.unified = number.unified := by
  cases none : number.isNaN with
  | true => rw [unified, unified, if_pos (isNaN_toBinary32_toBinary64 none), if_pos none]
  | false => rw [toBinary32_toBinary64 none]

end Binary32

namespace Binary64

/-- A number, with one NaN for all. -/
def unified (number : Binary64) : Binary64 :=
  if number.isNaN then ⟨0x7FF8000000000000⟩ else number

end Binary64

namespace HostValue

/-! ## One NaN for all -/

mutual

/-- A value with one NaN for all, but for the keys of its maps. -/
def unified : HostValue → HostValue
  | .single value => .single value.unified
  | .double value => .double value.unified
  | .complexSingle real imaginary => .complexSingle real.unified imaginary.unified
  | .complexDouble real imaginary => .complexDouble real.unified imaginary.unified
  | .seq elements => .seq (unifiedAll elements)
  | .map entries => .map (unifiedEntries entries)
  | .struct fields => .struct (unifiedAll fields)
  | .boxed value => .boxed value.unified
  | .present value => .present value.unified
  | .tuple elements => .tuple (unifiedAll elements)
  | value => value

/-- The values of a list with one NaN for all. -/
def unifiedAll : List HostValue → List HostValue
  | [] => []
  | value :: values => value.unified :: unifiedAll values

/-- The entries of a map with one NaN for all values. -/
def unifiedEntries : List (HostValue × HostValue) → List (HostValue × HostValue)
  | [] => []
  | (key, value) :: entries => (key, value.unified) :: unifiedEntries entries

end

/-- Two values that host code takes for equal. -/
def Alike (left right : HostValue) : Prop := left.unified = right.unified

theorem Alike.refl (value : HostValue) : value.Alike value := rfl

theorem keys_unifiedEntries (entries : List (HostValue × HostValue)) :
    (unifiedEntries entries).map (·.1) = entries.map (·.1) := by
  induction entries with
  | nil => rfl
  | cons entry entries ih =>
    obtain ⟨key, value⟩ := entry
    rw [unifiedEntries, List.map_cons, List.map_cons, ih]

/-! ## Regular values -/

/-- Keys in ascending order. -/
def Ascending (keys : List HostValue) : Prop :=
  keys.Pairwise fun earlier later => later.order earlier = .gt

mutual

/-- A value as host code holds it. -/
def Regular : HostValue → Prop
  | .seq elements => RegularAll elements
  | .map entries => Ascending (entries.map (·.1)) ∧ RegularEntries entries
  | .struct fields => RegularAll fields
  | .boxed value => value.Regular
  | .present value => value.Regular
  | .tuple elements => RegularAll elements
  | .keywords dict => dict.isSome
  | _ => True

/-- Values of a list, each as host code holds it. -/
def RegularAll : List HostValue → Prop
  | [] => True
  | value :: values => value.Regular ∧ RegularAll values

/-- Keys and values of a map, each as host code holds it. -/
def RegularEntries : List (HostValue × HostValue) → Prop
  | [] => True
  | (key, value) :: entries => key.Regular ∧ value.Regular ∧ RegularEntries entries

end

mutual

/-- A regular value lacks no keyword dicts. -/
theorem completed_of_regular : ∀ (value : HostValue) (world : World), value.Regular →
    value.completed world = (value, world)
  | .keywords dict, world, regular => by
    cases dict with
    | none => cases regular
    | some dict => rfl
  | .seq elements, world, regular | .tuple elements, world, regular
  | .struct elements, world, regular => by
    rw [completed, completedAll_of_regular elements world regular]
  | .map entries, world, regular => by
    rw [completed, completedEntries_of_regular entries world regular.2]
  | .boxed value, world, regular | .present value, world, regular => by
    rw [completed, completed_of_regular value world regular]
  | .unit, _, _ | .bool _, _, _ | .int _, _, _ | .single _, _, _ | .double _, _, _
  | .complexSingle _ _, _, _ | .complexDouble _ _, _, _ | .text _, _, _ | .bytes _, _, _
  | .absent, _, _ | .object _, _, _ | .sealed _, _, _ => rfl

theorem completedAll_of_regular : ∀ (values : List HostValue) (world : World),
    RegularAll values → completedAll values world = (values, world)
  | [], _, _ => rfl
  | value :: values, world, regular => by
    simp only [completedAll, completed_of_regular value world regular.1,
      completedAll_of_regular values world regular.2]

theorem completedEntries_of_regular : ∀ (entries : List (HostValue × HostValue)) (world : World),
    RegularEntries entries → completedEntries entries world = (entries, world)
  | [], _, _ => rfl
  | (key, value) :: entries, world, regular => by
    obtain ⟨first, second, rest⟩ := regular
    simp only [completedEntries, completed_of_regular key world first,
      completed_of_regular value world second, completedEntries_of_regular entries world rest]

end

/-- Regular values at the front lack no keyword dicts. -/
theorem completedAll_append_of_regular {front : List HostValue} (regular : RegularAll front)
    (back : List HostValue) (world : World) :
    completedAll (front ++ back) world =
      (front ++ (completedAll back world).1, (completedAll back world).2) := by
  induction front with
  | nil => rfl
  | cons value front ih =>
    rw [List.cons_append, completedAll, completed_of_regular value world regular.1]
    dsimp only
    rw [ih regular.2]
    rfl

mutual

/-- What is owned lacks no keyword dicts any more. -/
theorem completed_completed : ∀ (value : HostValue) (world later : World),
    (value.completed world).1.completed later = ((value.completed world).1, later)
  | .keywords dict, world, later => by
    cases dict with
    | none => rfl
    | some dict => rfl
  | .seq elements, world, later | .tuple elements, world, later
  | .struct elements, world, later => by
    simp only [completed, completedAll_completedAll elements world later]
  | .map entries, world, later => by
    simp only [completed, completedEntries_completedEntries entries world later]
  | .boxed value, world, later | .present value, world, later => by
    simp only [completed, completed_completed value world later]
  | .unit, _, _ | .bool _, _, _ | .int _, _, _ | .single _, _, _ | .double _, _, _
  | .complexSingle _ _, _, _ | .complexDouble _ _, _, _ | .text _, _, _ | .bytes _, _, _
  | .absent, _, _ | .object _, _, _ | .sealed _, _, _ => rfl

theorem completedAll_completedAll : ∀ (values : List HostValue) (world later : World),
    completedAll (completedAll values world).1 later = ((completedAll values world).1, later)
  | [], _, _ => rfl
  | value :: values, world, later => by
    simp only [completedAll, completed_completed value world later,
      completedAll_completedAll values _ later]

theorem completedEntries_completedEntries :
    ∀ (entries : List (HostValue × HostValue)) (world later : World),
      completedEntries (completedEntries entries world).1 later =
        ((completedEntries entries world).1, later)
  | [], _, _ => rfl
  | (key, value) :: entries, world, later => by
    simp only [completedEntries, completed_completed key world later,
      completed_completed value _ later, completedEntries_completedEntries entries _ later]

end

mutual

theorem regular_unified : ∀ value : HostValue, value.unified.Regular ↔ value.Regular
  | .seq elements | .struct elements | .tuple elements => regularAll_unified elements
  | .map entries => by
    rw [unified, Regular, Regular, keys_unifiedEntries, regularEntries_unified entries]
  | .boxed value | .present value => regular_unified value
  | .unit | .bool _ | .int _ | .single _ | .double _ | .complexSingle _ _
  | .complexDouble _ _ | .text _ | .bytes _ | .absent | .object _ | .keywords _
  | .sealed _ => Iff.rfl

theorem regularAll_unified : ∀ values : List HostValue,
    RegularAll (unifiedAll values) ↔ RegularAll values
  | [] => Iff.rfl
  | value :: values => and_congr (regular_unified value) (regularAll_unified values)

theorem regularEntries_unified : ∀ entries : List (HostValue × HostValue),
    RegularEntries (unifiedEntries entries) ↔ RegularEntries entries
  | [] => Iff.rfl
  | (_, value) :: entries =>
    and_congr Iff.rfl (and_congr (regular_unified value) (regularEntries_unified entries))

end

/-- A value that is like a regular one is regular. -/
theorem Alike.regular {left right : HostValue} (alike : left.Alike right)
    (regular : left.Regular) : right.Regular := by
  rwa [← regular_unified, ← (alike : left.unified = right.unified), regular_unified]

/-! ## The entries of a regular map -/

theorem compareBytes_self (value : List UInt8) : compareBytes value value = .eq := by
  induction value with
  | nil => rfl
  | cons head tail ih => simp [compareBytes, ih]

mutual

theorem order_self : ∀ value : HostValue, value.order value = .eq
  | .unit | .absent => by simp [order, rank]
  | .bool _ | .int _ | .single _ | .double _ | .complexSingle _ _ | .complexDouble _ _
  | .object _ | .sealed _ => by simp [order]
  | .text value => by simp [order, compareOfLessAndEq]
  | .bytes value => by simp [order, compareBytes_self]
  | .seq elements | .struct elements | .tuple elements => by simp [order, orderAll_self elements]
  | .map entries => by simp [order, orderEntries_self entries]
  | .boxed value | .present value => by simp [order, order_self value]
  | .keywords dict => by cases dict <;> simp [order, compareDicts]

theorem orderAll_self : ∀ values : List HostValue, orderAll values values = .eq
  | [] => rfl
  | value :: values => by simp [orderAll, order_self value, orderAll_self values]

theorem orderEntries_self : ∀ entries : List (HostValue × HostValue),
    orderEntries entries entries = .eq
  | [] => rfl
  | (key, value) :: entries => by
    simp [orderEntries, order_self key, order_self value, orderEntries_self entries]

end

/-- Keys in ascending order are distinct. -/
theorem Ascending.nodup {keys : List HostValue} (ascending : Ascending keys) : keys.Nodup := by
  refine List.Pairwise.imp ?_ ascending
  rintro earlier later after rfl
  rw [order_self] at after
  cases after

/-- An entry that comes after all others is put at the end. -/
theorem insertEntry_last {key value : HostValue} {entries : List (HostValue × HostValue)}
    (last : ∀ name ∈ entries.map (·.1), key.order name = .gt) :
    insertEntry key value entries = entries ++ [(key, value)] := by
  induction entries with
  | nil => rfl
  | cons entry rest ih =>
    obtain ⟨name, old⟩ := entry
    have first : key.order name = .gt := last name (by simp)
    rw [insertEntry, first]
    dsimp only
    rw [ih fun other member => last other (by simp [member]), List.cons_append]

end HostValue

end HostBridge
