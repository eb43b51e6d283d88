import HostBridge.Proofs.Name.Numbering
import Mathlib.Data.List.TakeWhile

/-!
# Final segments

A name is cut at its first angle bracket, and the identifier at the end of what is left is its final
segment.  Marks of closures at the end of a name are taken off first, one after the other.
-/

namespace HostBridge.Name

/-- The characters that structure a qualified name. -/
def structural : List Char := [':', '.', '<', '>', '\x7b', '\x7d']

/-- An identifier as it stands in a qualified name. -/
structure Identifier where
  text : List Char
  named : text ≠ []
  plain : text.all (· ∉ structural) = true

namespace Identifier

variable (identifier : Identifier)

/-- The name that an item is exported under. -/
def snake : String := String.ofList (snakeChars identifier.text)

theorem lacks {char : Char} (reserved : char ∈ structural) : char ∉ identifier.text := by
  intro member
  have free := List.all_eq_true.mp identifier.plain char member
  exact of_decide_eq_true free reserved

theorem snakeChars_ne_nil {text : List Char} (named : text ≠ []) : snakeChars text ≠ [] := by
  cases text with
  | nil => exact absurd rfl named
  | cons char rest =>
    rw [snakeChars]
    split
    · exact List.append_ne_nil_of_left_ne_nil (lowerCase_ne_nil char) _
    · exact List.cons_ne_nil _ _

theorem snake_ne_empty : identifier.snake ≠ "" := by
  intro empty
  have nothing : snakeChars identifier.text = [] := String.ofList_eq_empty_iff.mp empty
  exact snakeChars_ne_nil identifier.named nothing

end Identifier

/-! ## The last identifier -/

section

variable {word text : List Char}

theorem uptoColons_of_plain (plain : ':' ∉ word) : uptoColons word = word := by
  induction word with
  | nil => rfl
  | cons char word ih =>
    obtain ⟨other, plain⟩ := not_or.mp (mt List.mem_cons.mpr plain)
    rw [uptoColons, ih plain]
    rintro rest rfl
    exact absurd rfl other

theorem uptoColons_append (plain : ':' ∉ word) :
    uptoColons (word ++ ':' :: ':' :: text) = word := by
  induction word with
  | nil => rfl
  | cons char word ih =>
    obtain ⟨other, plain⟩ := not_or.mp (mt List.mem_cons.mpr plain)
    rw [List.cons_append, uptoColons, ih plain]
    rintro rest rfl
    exact absurd rfl other

theorem dropColons_append (named : word ≠ []) (plain : ':' ∉ word) :
    dropColons (word ++ text) = word ++ text := by
  cases word with
  | nil => exact absurd rfl named
  | cons char word =>
    rw [List.cons_append, dropColons]
    intro rest same
    injection same with colon
    exact plain (colon ▸ List.mem_cons_self)

/-- What follows an angle bracket makes no difference. -/
theorem lastSegment_bracketed (text rest : List Char) :
    lastSegment (text ++ '<' :: rest) = lastSegment text := by
  have cut : (text ++ '<' :: rest).takeWhile (· != '<') = text.takeWhile (· != '<') := by
    induction text with
    | nil => rfl
    | cons char text ih => rw [List.cons_append, List.takeWhile_cons, List.takeWhile_cons, ih]
  rw [lastSegment, lastSegment, cut]

/-- What a final segment can stand behind. -/
structure Front (text : List Char) : Prop where
  bare : '<' ∉ text
  separated : text = [] ∨ [':', ':'] <:+ text

theorem lastSegment_identifier (front : Front text) (identifier : Identifier) :
    lastSegment (text ++ identifier.text) = identifier.text := by
  have bare : (text ++ identifier.text).takeWhile (· != '<') = text ++ identifier.text := by
    rw [List.takeWhile_eq_self_iff]
    intro char member
    rw [bne_iff_ne]
    rintro rfl
    rcases List.mem_append.mp member with before | inside
    · exact front.bare before
    · exact identifier.lacks (by decide) inside
  have plain : ':' ∉ identifier.text.reverse :=
    fun member => identifier.lacks (by decide) (List.mem_reverse.mp member)
  have named : identifier.text.reverse ≠ [] := List.reverse_ne_nil_iff.mpr identifier.named
  have undotted : identifier.text.reverse.takeWhile (· != '.') = identifier.text.reverse := by
    rw [List.takeWhile_eq_self_iff]
    intro char member
    rw [bne_iff_ne]
    rintro rfl
    exact identifier.lacks (by decide) (List.mem_reverse.mp member)
  have last : uptoColons (identifier.text.reverse ++ text.reverse) = identifier.text.reverse := by
    rcases front.separated with rfl | ⟨before, rfl⟩
    · rw [List.reverse_nil, List.append_nil, uptoColons_of_plain plain]
    · rw [List.reverse_append]
      exact uptoColons_append plain
  have unmarked : identifier.text ≠ closureMark := by
    intro same
    have inside : '\x7b' ∈ identifier.text := by
      rw [same]
      decide
    exact identifier.lacks (by decide) inside
  rw [lastSegment, bare, List.reverse_append, dropColons_append named plain, last, undotted,
    List.reverse_reverse]
  exact if_neg unmarked

end

/-! ## Marks of closures -/

/-- Marks of closures, each behind a separator. -/
def closures (marks : Nat) : List Char := (List.replicate marks ([':', ':'] ++ closureMark)).flatten

theorem closures_succ (marks : Nat) :
    closures (marks + 1) = closures marks ++ ([':', ':'] ++ closureMark) := by
  rw [closures, List.replicate_succ', List.flatten_append, List.flatten_singleton]
  rfl

/-- The text does not end like a mark. -/
def Opened (text : List Char) : Prop := text.getLast? ≠ some '\x7d'

section

variable {text : List Char}

theorem dropClosure?_marked (text : List Char) :
    dropClosure? (text ++ ([':', ':'] ++ closureMark)).reverse = some text.reverse := by
  have back : (text ++ ([':', ':'] ++ closureMark)).reverse =
      closureMark.reverse ++ [':', ':'] ++ text.reverse := by
    rw [List.reverse_append, List.reverse_append]
    rfl
  have marked : (closureMark.reverse ++ [':', ':']).isPrefixOf
      (closureMark.reverse ++ [':', ':'] ++ text.reverse) = true :=
    List.isPrefixOf_iff_prefix.mpr (List.prefix_append _ _)
  rw [dropClosure?, back, if_pos marked, List.drop_left]

theorem not_isClosure_of_opened {declared : String} (opened : Opened declared.toList) :
    ¬IsClosure declared := by
  rintro ⟨before, same⟩
  apply opened
  rw [← same, List.getLast?_append]
  rfl

theorem dropClosure?_opened (opened : Opened text) : dropClosure? text.reverse = none := by
  rw [dropClosure?]
  apply if_neg
  intro marked
  have ends := List.isPrefixOf_iff_prefix.mp marked
  rw [← List.reverse_suffix, List.reverse_reverse] at ends
  obtain ⟨before, same⟩ := ends
  apply opened
  rw [← same, List.getLast?_append]
  rfl

/-- All marks are taken off. -/
theorem dropClosures_closures (opened : Opened text) {marks fuel : Nat} (enough : marks ≤ fuel) :
    dropClosures fuel (text ++ closures marks).reverse = text.reverse := by
  induction marks generalizing fuel with
  | zero =>
    rw [closures, List.replicate_zero, List.flatten_nil, List.append_nil]
    cases fuel with
    | zero => rfl
    | succ fuel => rw [dropClosures, dropClosure?_opened opened]
  | succ marks ih =>
    obtain ⟨fuel, rfl⟩ := Nat.exists_eq_add_of_le' enough
    rw [closures_succ, ← List.append_assoc, ← Nat.add_assoc, dropClosures, dropClosure?_marked]
    apply ih
    exact Nat.le_add_left _ _

theorem le_length_closures (marks : Nat) : marks ≤ (closures marks).length := by
  rw [closures, List.length_flatten, List.map_replicate, List.sum_replicate_nat]
  apply Nat.le_mul_of_pos_right
  decide

/-- The owner of a closure is the final segment of what is in front of its marks. -/
theorem closureOwner?_closures (opened : Opened text) (marks : Nat) :
    closureOwner? (text ++ closures (marks + 1)) =
      if (lastSegment text).isEmpty then none else some (lastSegment text) := by
  have enough : marks ≤ (text ++ closures marks).reverse.length := by
    rw [List.length_reverse, List.length_append]
    exact Nat.le_add_left_of_le (le_length_closures marks)
  rw [closureOwner?, closures_succ, ← List.append_assoc, dropClosure?_marked]
  dsimp only
  rw [dropClosures_closures opened enough, List.reverse_reverse]

theorem closureMark_suffix_closures (text : List Char) (marks : Nat) :
    closureMark <:+ text ++ closures (marks + 1) := by
  rw [closures_succ, ← List.append_assoc, ← List.append_assoc]
  exact List.suffix_append _ _

end

end HostBridge.Name
