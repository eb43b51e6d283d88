import HostBridge.Name
import Mathlib.Data.Nat.Find
import Mathlib.Data.List.Nodup

/-!
# Numbered names

An unnamed closure is offered its stem with the numbers `0, 1, …` behind it.  The offers are all
different, so among one more of them than there are names one is free: the search ends, and it
ends at the least number that is free.
-/

namespace HostBridge.Name

variable {names : List String} {base declared : String} {number : Nat}

theorem candidate_injective (base : String) : Function.Injective (candidate base) := by
  intro first second same
  rw [candidate, candidate, String.append_right_inj, Nat.repr_eq_ofList_toDigits,
    Nat.repr_eq_ofList_toDigits, String.ofList_inj] at same
  have read : ∀ number, Nat.ofDigitChars 10 (Nat.toDigits 10 number) 0 = number :=
    fun number => Nat.ofDigitChars_toDigits (by decide) (by decide)
  calc first = Nat.ofDigitChars 10 (Nat.toDigits 10 first) 0 := (read first).symm
    _ = Nat.ofDigitChars 10 (Nat.toDigits 10 second) 0 := by rw [same]
    _ = second := read second

/-- The least number that makes a name which is not among the names. -/
structure LeastFree (names : List String) (base : String) (number : Nat) : Prop where
  free : candidate base number ∉ names
  least : ∀ smaller < number, candidate base smaller ∈ names

theorem LeastFree.unique {other : Nat} (first : LeastFree names base number)
    (second : LeastFree names base other) : number = other := by
  rcases Nat.lt_trichotomy number other with below | same | above
  · exact absurd (second.least number below) first.free
  · exact same
  · exact absurd (first.least other above) second.free

/-- Among more candidates than there are names one is free. -/
theorem exists_free (names : List String) (base : String) :
    ∃ number ≤ names.length, candidate base number ∉ names := by
  by_contra none
  push Not at none
  have inside : (List.range (names.length + 1)).map (candidate base) ⊆ names := by
    intro name member
    obtain ⟨number, below, rfl⟩ := List.mem_map.mp member
    exact none number (Nat.le_of_lt_succ (List.mem_range.mp below))
  have distinct : ((List.range (names.length + 1)).map (candidate base)).Nodup :=
    List.nodup_range.map (candidate_injective base)
  have many := distinct.length_le_of_subset inside
  rw [List.length_map, List.length_range] at many
  exact absurd many (Nat.not_succ_le_self _)

theorem exists_leastFree (names : List String) (base : String) :
    ∃ number ≤ names.length, LeastFree names base number := by
  obtain ⟨bound, below, free⟩ := exists_free names base
  have some : ∃ number, candidate base number ∉ names := ⟨bound, free⟩
  refine ⟨Nat.find some, Nat.le_trans (Nat.find_min' some free) below, Nat.find_spec some, ?_⟩
  intro smaller less
  exact not_not.mp (Nat.find_min some less)

/-- The search ends at the least free number, from any number that is not beyond it. -/
theorem firstFree_eq (least : LeastFree names base number) {attempts start : Nat}
    (below : start ≤ number) (enough : number ≤ start + attempts) :
    firstFree names.contains base attempts start = candidate base number := by
  induction attempts generalizing start with
  | zero => rw [firstFree, Nat.le_antisymm below enough]
  | succ attempts ih =>
    rw [firstFree]
    rcases Nat.eq_or_lt_of_le below with rfl | before
    · have untaken : names.contains (candidate base start) = false := by simpa using least.free
      rw [untaken, if_neg Bool.false_ne_true]
    · rw [if_pos (List.contains_iff_mem.mpr (least.least start before))]
      apply ih before
      omega

/-- Names that were numbered in order are followed by the next number. -/
theorem leastFree_range (base : String) (count : Nat) :
    LeastFree ((List.range count).map (candidate base)) base count where
  free member := by
    obtain ⟨number, below, same⟩ := List.mem_map.mp member
    rw [candidate_injective base same] at below
    exact Nat.lt_irrefl _ (List.mem_range.mp below)
  least smaller less := List.mem_map_of_mem (List.mem_range.mpr less)

/-! ## Closures -/

/-- What the numbered names of a closure begin with: the item that it is defined in, if it has a
name. -/
def closureStem (declared : String) : String :=
  match closureOwner? declared.toList with
  | some owner => String.ofList (snakeChars owner) ++ "_closure"
  | none => "closure"

/-- A closure is known by the mark at the end of its name. -/
def IsClosure (declared : String) : Prop := closureMark <:+ declared.toList

instance (declared : String) : Decidable (IsClosure declared) :=
  inferInstanceAs (Decidable (closureMark <:+ declared.toList))

/-- Only a closure has an owner. -/
theorem isClosure_of_closureOwner? {owner : List Char}
    (owned : closureOwner? declared.toList = some owner) : IsClosure declared := by
  rw [closureOwner?, dropClosure?] at owned
  dsimp only at owned
  split at owned
  · cases owned
  · rename_i marked
    split at marked
    · rename_i ends
      have back := List.reverse_suffix.mpr (List.isPrefixOf_iff_prefix.mp ends)
      rw [List.reverse_reverse, List.reverse_append, List.reverse_reverse] at back
      exact (List.suffix_append _ _).trans back
    · cases marked

theorem closureBase?_of_isClosure (closure : IsClosure declared) :
    closureBase? declared = some (closureStem declared) := by
  rw [closureBase?, closureStem]
  cases closureOwner? declared.toList with
  | some owner => rfl
  | none => exact if_pos (List.isPrefixOf_iff_prefix.mpr (List.reverse_prefix.mpr closure))

theorem closureBase?_of_not_isClosure (named : ¬IsClosure declared) :
    closureBase? declared = none := by
  rw [closureBase?]
  cases owned : closureOwner? declared.toList with
  | some owner => exact absurd (isClosure_of_closureOwner? owned) named
  | none =>
    apply if_neg
    intro marked
    exact named (List.reverse_prefix.mp (List.isPrefixOf_iff_prefix.mp marked))

/-- An unnamed closure is called by its stem and the least number that is free. -/
theorem derive_of_isClosure (closure : IsClosure declared)
    (least : LeastFree names (closureStem declared) number) :
    derive "" declared names = candidate (closureStem declared) number := by
  rw [derive, closureBase?_of_isClosure closure, if_neg (not_not.mpr rfl)]
  obtain ⟨bound, below, other⟩ := exists_leastFree names (closureStem declared)
  apply firstFree_eq least (Nat.zero_le number)
  rw [Nat.zero_add, least.unique other]
  exact below

/-- An unnamed item that is not a closure keeps its declared name. -/
theorem derive_of_not_isClosure (named : ¬IsClosure declared) :
    derive "" declared names = exposed declared := by
  rw [derive, closureBase?_of_not_isClosure named, if_neg (not_not.mpr rfl)]

end HostBridge.Name
