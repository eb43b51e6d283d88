import Mathlib
import HostBridge.Host.Value

/-!
# The order of host values tells values apart

Keys of a map are compared by `HostValue.order`.  Two values compare as equal
exactly if they are equal, so an entry replaces another only if both have one
and the same key.
-/

namespace HostBridge

theorem eq_of_toNat {left right : Bool} (equal : left.toNat = right.toNat) : left = right := by
  cases left <;> cases right <;> simp_all

namespace Binary32

theorem eq_of_word {left right : Binary32} (equal : left.word = right.word) : left = right := by
  cases left
  cases right
  exact congrArg _ (UInt32.toNat_inj.mp equal)

end Binary32

namespace Binary64

theorem eq_of_word {left right : Binary64} (equal : left.word = right.word) : left = right := by
  cases left
  cases right
  exact congrArg _ (UInt64.toNat_inj.mp equal)

end Binary64

namespace Ref

theorem eq_of_place {left right : Ref} (equal : left.place = right.place) : left = right := by
  cases left
  cases right
  exact congrArg _ equal

end Ref

namespace HostValue

theorem eq_of_compareBytes : ∀ {left right : List UInt8},
    compareBytes left right = .eq → left = right
  | [], right, equal => by cases right <;> simp_all [compareBytes]
  | _ :: _, right, equal => by
    cases right with
    | nil => simp [compareBytes] at equal
    | cons head tail =>
      simp only [compareBytes, Ordering.then_eq_eq, Nat.compare_eq_eq] at equal
      rw [UInt8.toNat_inj.mp equal.1, eq_of_compareBytes equal.2]

theorem eq_of_compareDicts {left right : Option Ref} (equal : compareDicts left right = .eq) :
    left = right := by
  cases left <;> cases right <;> simp [compareDicts] at equal
  · rfl
  · rw [Ref.eq_of_place equal]

mutual

/-- Values that compare as equal are equal. -/
theorem eq_of_order : ∀ {left right : HostValue}, left.order right = .eq → left = right
  | .unit, right, equal | .absent, right, equal => by
    cases right <;> simp_all [order, rank]
  | .bool _, right, equal => by
    cases right <;> simp only [order, rank, Nat.compare_eq_eq, reduceCtorEq] at equal
    · rw [eq_of_toNat equal]
    all_goals omega
  | .int _, right, equal | .sealed _, right, equal => by
    cases right <;> simp_all [order, rank]
  | .single _, right, equal => by
    cases right <;> simp [order, rank] at equal
    rw [Binary32.eq_of_word equal]
  | .double _, right, equal => by
    cases right <;> simp [order, rank] at equal
    rw [Binary64.eq_of_word equal]
  | .complexSingle _ _, right, equal => by
    cases right <;> simp [order, rank] at equal
    rw [Binary32.eq_of_word equal.1, Binary32.eq_of_word equal.2]
  | .complexDouble _ _, right, equal => by
    cases right <;> simp [order, rank] at equal
    rw [Binary64.eq_of_word equal.1, Binary64.eq_of_word equal.2]
  | .text _, right, equal => by
    cases right <;> simp [order, rank] at equal
    rw [(compareOfLessAndEq_eq_eq String.le_refl String.not_le).mp equal]
  | .bytes _, right, equal => by
    cases right <;> simp [order, rank] at equal
    rw [eq_of_compareBytes equal]
  | .seq _, right, equal | .struct _, right, equal | .tuple _, right, equal => by
    cases right <;> simp [order, rank] at equal
    rw [eq_of_orderAll equal]
  | .map _, right, equal => by
    cases right <;> simp [order, rank] at equal
    rw [eq_of_orderEntries equal]
  | .boxed _, right, equal | .present _, right, equal => by
    cases right <;> simp [order, rank] at equal
    rw [eq_of_order equal]
  | .object _, right, equal => by
    cases right <;> simp [order, rank] at equal
    rw [Ref.eq_of_place equal]
  | .keywords _, right, equal => by
    cases right <;> simp [order, rank] at equal
    rw [eq_of_compareDicts equal]

theorem eq_of_orderAll : ∀ {left right : List HostValue},
    orderAll left right = .eq → left = right
  | [], right, equal => by cases right <;> simp_all [orderAll]
  | _ :: _, right, equal => by
    cases right with
    | nil => simp [orderAll] at equal
    | cons head tail =>
      simp only [orderAll, Ordering.then_eq_eq] at equal
      rw [eq_of_order equal.1, eq_of_orderAll equal.2]

theorem eq_of_orderEntries : ∀ {left right : List (HostValue × HostValue)},
    orderEntries left right = .eq → left = right
  | [], right, equal => by cases right <;> simp_all [orderEntries]
  | (_, _) :: _, right, equal => by
    cases right with
    | nil => simp [orderEntries] at equal
    | cons head tail =>
      simp only [orderEntries, Ordering.then_eq_eq] at equal
      rw [eq_of_order equal.1.1, eq_of_order equal.1.2, eq_of_orderEntries equal.2]

end

end HostValue

end HostBridge
