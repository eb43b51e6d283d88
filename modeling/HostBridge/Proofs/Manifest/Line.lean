import HostBridge.Manifest
import Mathlib.Data.List.DropRight

/-!
# Lines of a manifest

What a line of a manifest may be, said without the functions that read it: it is blank, a
comment, or an assignment, whose key stands in front of the first equals sign.  Reading a line
finds out which of these it is.

A variable that a line defines can be written down again.  No blank stands at the ends of its
name and of its value, the name holds no equals sign and does not look like a comment, and all
of it fits on one line.
-/

namespace HostBridge

/-! ## Blanks at the ends -/

/-- Text that neither begins nor ends with a blank. -/
structure Trimmed (text : List Char) : Prop where
  front : ∀ char, text.head? = some char → isBlank char = false
  back : ∀ char, text.getLast? = some char → isBlank char = false

/-- Nothing is dropped from a list whose first item is to be kept. -/
theorem dropWhile_of_head? {α : Type} {test : α → Bool} {items : List α}
    (kept : ∀ item, items.head? = some item → test item = false) :
    items.dropWhile test = items := by
  cases items with
  | nil => rfl
  | cons item items =>
    apply List.dropWhile_cons_of_neg
    simp [kept item rfl]

/-- What is left after dropping begins with an item that is to be kept. -/
theorem head?_of_dropWhile {α : Type} {test : α → Bool} {items : List α} {item : α}
    (first : (items.dropWhile test).head? = some item) : test item = false := by
  have stopped := List.head?_dropWhile_not test items
  rw [first] at stopped
  exact stopped

theorem trimBlank_isPrefix (text : List Char) : trimBlank text <+: text.dropWhile isBlank :=
  List.rdropWhile_prefix isBlank _

theorem trimBlank_isInfix (text : List Char) : trimBlank text <:+: text :=
  (trimBlank_isPrefix text).isInfix.trans (List.dropWhile_suffix isBlank).isInfix

theorem trimmed_trimBlank (text : List Char) : Trimmed (trimBlank text) := by
  constructor
  · intro char first
    obtain ⟨rest, same⟩ := List.head?_eq_some_iff.mp first
    obtain ⟨more, whole⟩ := trimBlank_isPrefix text
    have beginning : (text.dropWhile isBlank).head? = some char := by
      rw [← whole, same]
      rfl
    exact head?_of_dropWhile beginning
  · intro char last
    rw [trimBlank, List.getLast?_reverse] at last
    exact head?_of_dropWhile last

theorem Trimmed.trimBlank_eq {text : List Char} (trimmed : Trimmed text) :
    trimBlank text = text := by
  have back : text.reverse.dropWhile isBlank = text.reverse := by
    apply dropWhile_of_head?
    intro char last
    rw [List.head?_reverse] at last
    exact trimmed.back char last
  rw [trimBlank, dropWhile_of_head? trimmed.front, back, List.reverse_reverse]

/-- A blank at the end does not count. -/
theorem trimBlank_concat {text : List Char} {char : Char} (blank : isBlank char = true) :
    trimBlank (text ++ [char]) = trimBlank text := by
  by_cases empty : text.dropWhile isBlank = []
  · rw [trimBlank, trimBlank, List.dropWhile_append, empty]
    simp [blank]
  · rw [trimBlank, trimBlank, List.dropWhile_append, if_neg (by simpa using empty),
      List.reverse_append]
    simp [blank]

/-- A text that begins with no blank keeps its beginning. -/
theorem head?_trimBlank {text : List Char} {char : Char} (first : text.head? = some char)
    (kept : isBlank char = false) : (trimBlank text).head? = some char := by
  have whole : text.dropWhile isBlank = text := by
    apply dropWhile_of_head?
    intro other same
    rw [first] at same
    cases same
    exact kept
  have nonempty : trimBlank text ≠ [] := by
    intro empty
    have blank : ∀ other ∈ text.reverse, isBlank other = true := by
      rw [trimBlank, List.reverse_eq_nil_iff, whole] at empty
      exact List.dropWhile_eq_nil_iff.mp empty
    obtain ⟨rest, rfl⟩ := List.head?_eq_some_iff.mp first
    have := blank char (by simp)
    rw [kept] at this
    cases this
  obtain ⟨rest, same⟩ := trimBlank_isPrefix text
  rw [whole] at same
  cases trimmed : trimBlank text with
  | nil => exact absurd trimmed nonempty
  | cons other others =>
    rw [trimmed] at same
    rw [← same] at first
    exact first

namespace Manifest

/-! ## Grammar -/

/-- What a line may be, blanks at its ends left out. -/
inductive Legible (line : List Char) : Prop where
  | blank (empty : line = [])
  | comment (marked : line.head? = some '#')
  | assignment {front rest : List Char} (parts : line = front ++ '=' :: rest)
    (first : '=' ∉ front) (named : trimBlank front ≠ [])

/-- A line, blanks at its ends left out, that defines a variable. -/
structure Defines (line : List Char) (key value : String) : Prop where
  counted : line.head? ≠ some '#'
  named : key ≠ ""
  parts : ∃ front rest, line = front ++ '=' :: rest ∧ '=' ∉ front ∧
    trimBlank front = key.toList ∧ trimBlank rest = value.toList

variable {line front rest : List Char} {key value : String}

/-- The first equals sign of a line is where reading cuts it. -/
theorem cut_assignment (first : '=' ∉ front) (rest : List Char) :
    (front ++ '=' :: rest).takeWhile (· != '=') = front ∧
      (front ++ '=' :: rest).dropWhile (· != '=') = '=' :: rest := by
  have before : ∀ char ∈ front, (char != '=') = true := by
    intro char member
    rw [bne_iff_ne]
    rintro rfl
    exact first member
  constructor
  · rw [List.takeWhile_append_of_pos before]
    simp
  · rw [List.dropWhile_append_of_pos before]
    simp

theorem read_silent (silent : line = [] ∨ line.head? = some '#') : Line.read line = .silent := by
  rcases silent with rfl | marked
  · rfl
  · simp [Line.read, marked]

theorem read_uncut (nonempty : line ≠ []) (counted : line.head? ≠ some '#') (absent : '=' ∉ line) :
    Line.read line = .malformed := by
  have spoken : (line.isEmpty || line.head? == some '#') = false := by
    rw [Bool.or_eq_false_iff, List.isEmpty_eq_false_iff, beq_eq_false_iff_ne]
    exact ⟨nonempty, counted⟩
  simp [Line.read, spoken, absent]

theorem read_cut (counted : (front ++ '=' :: rest).head? ≠ some '#') (first : '=' ∉ front) :
    Line.read (front ++ '=' :: rest) =
      if trimBlank front = [] then .malformed
      else .assignment (String.ofList (trimBlank front)) (String.ofList (trimBlank rest)) := by
  obtain ⟨before, after⟩ := cut_assignment first rest
  have spoken : ((front ++ '=' :: rest).isEmpty || (front ++ '=' :: rest).head? == some '#') =
      false := by
    rw [Bool.or_eq_false_iff, List.isEmpty_eq_false_iff, beq_eq_false_iff_ne]
    exact ⟨by simp, counted⟩
  rw [Line.read, spoken, before, after]
  by_cases empty : trimBlank front = [] <;> simp [empty]

/-- A line is read as an assignment iff it defines the variable. -/
theorem read_eq_assignment_iff :
    Line.read line = .assignment key value ↔ Defines line key value := by
  constructor
  · intro reading
    have nonempty : line ≠ [] := by
      rintro rfl
      cases reading
    have counted : line.head? ≠ some '#' := by
      intro marked
      rw [read_silent (.inr marked)] at reading
      cases reading
    by_cases member : '=' ∈ line
    · obtain ⟨front, rest, rfl, first⟩ := List.eq_append_cons_of_mem member
      rw [read_cut counted first] at reading
      split at reading
      · cases reading
      · rename_i named
        cases reading
        refine ⟨counted, ?_, front, rest, rfl, first, ?_, ?_⟩
        · rwa [ne_eq, ← String.toList_inj, String.toList_ofList]
        · exact String.toList_ofList.symm
        · exact String.toList_ofList.symm
    · rw [read_uncut nonempty counted member] at reading
      cases reading
  · rintro ⟨counted, named, front, rest, rfl, first, isKey, isValue⟩
    have filled : trimBlank front ≠ [] := by
      rw [isKey]
      simpa using named
    rw [read_cut counted first, if_neg filled, isKey, isValue, String.ofList_toList,
      String.ofList_toList]

/-- A line is malformed iff it is nothing that a line may be. -/
theorem read_eq_malformed_iff : Line.read line = .malformed ↔ ¬Legible line := by
  constructor
  · intro reading legible
    cases legible with
    | blank empty =>
      rw [read_silent (.inl empty)] at reading
      cases reading
    | comment marked =>
      rw [read_silent (.inr marked)] at reading
      cases reading
    | @assignment front rest parts first named =>
      subst parts
      by_cases marked : (front ++ '=' :: rest).head? = some '#'
      · rw [read_silent (.inr marked)] at reading
        cases reading
      · rw [read_cut marked first, if_neg named] at reading
        cases reading
  · intro illegible
    have nonempty : line ≠ [] := fun empty => illegible (.blank empty)
    have counted : line.head? ≠ some '#' := fun marked => illegible (.comment marked)
    by_cases member : '=' ∈ line
    · obtain ⟨front, rest, rfl, first⟩ := List.eq_append_cons_of_mem member
      rw [read_cut counted first, if_pos]
      by_contra named
      exact illegible (.assignment rfl first named)
    · exact read_uncut nonempty counted member

/-! ## Variables that can be written -/

/-- A variable that a line of its own gives back. -/
structure Writable (key value : String) : Prop where
  named : key ≠ ""
  plain : '=' ∉ key.toList
  counted : key.toList.head? ≠ some '#'
  trimmedKey : Trimmed key.toList
  trimmedValue : Trimmed value.toList
  oneLine : '\n' ∉ key.toList ∧ '\n' ∉ value.toList

/-- What a line defines can be written. -/
theorem Defines.writable (defines : Defines line key value) (trimmed : Trimmed line)
    (oneLine : '\n' ∉ line) : Writable key value := by
  obtain ⟨counted, named, front, rest, rfl, first, isKey, isValue⟩ := defines
  have within : ∀ char, char ∉ front → char ∉ key.toList := by
    intro char absent member
    rw [← isKey] at member
    exact absent ((trimBlank_isInfix front).subset member)
  constructor
  · exact named
  · exact within '=' first
  · -- The line begins with no blank, so the key begins where the line does.
    cases front with
    | nil =>
      rw [← isKey]
      simp
    | cons char front =>
      have beginning : (trimBlank (char :: front)).head? = some char :=
        head?_trimBlank rfl (trimmed.front char rfl)
      rw [← isKey, beginning]
      exact counted
  · rw [← isKey]
    exact trimmed_trimBlank front
  · rw [← isValue]
    exact trimmed_trimBlank rest
  · rw [List.mem_append, List.mem_cons, not_or, not_or] at oneLine
    obtain ⟨inFront, -, inRest⟩ := oneLine
    constructor
    · exact within '\n' inFront
    · rw [← isValue]
      exact fun member => inRest ((trimBlank_isInfix rest).subset member)

/-- The line that a variable is written on. -/
def written (entry : String × String) : List Char := entry.1.toList ++ '=' :: entry.2.toList

namespace Writable

theorem oneLine_written (writable : Writable key value) : '\n' ∉ written (key, value) := by
  rw [written, List.mem_append, List.mem_cons, not_or, not_or]
  exact ⟨writable.oneLine.1, by decide, writable.oneLine.2⟩

theorem trimmed_written (writable : Writable key value) : Trimmed (written (key, value)) := by
  constructor
  · intro char beginning
    apply writable.trimmedKey.front
    have filled : key.toList ≠ [] := by simpa using writable.named
    rwa [written, List.head?_append_of_ne_nil _ filled] at beginning
  · intro char ending
    rw [written, List.getLast?_append_cons] at ending
    cases same : value.toList with
    | nil =>
      rw [same] at ending
      cases ending
      decide
    | cons first rest =>
      apply writable.trimmedValue.back
      rw [same] at ending ⊢
      rwa [List.getLast?_cons_cons] at ending

/-- A variable is read back from its line. -/
theorem read_written (writable : Writable key value) :
    Line.read (written (key, value)) = .assignment key value := by
  rw [read_eq_assignment_iff]
  refine ⟨?_, writable.named, key.toList, value.toList, rfl, writable.plain, ?_, ?_⟩
  · have filled : key.toList ≠ [] := by simpa using writable.named
    rw [written, List.head?_append_of_ne_nil _ filled]
    exact writable.counted
  · exact writable.trimmedKey.trimBlank_eq
  · exact writable.trimmedValue.trimBlank_eq

end Writable

end Manifest

end HostBridge
