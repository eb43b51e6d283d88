import HostBridge.Proofs.Manifest.Line
import Mathlib.Data.String.Basic

/-!
# Reading manifests line by line

Reading goes on past every line that may stand in a manifest and ends at the first other one,
with its number.  If there is none, a variable has the value that the last line that defines it
gives to it, and the variables stand in ascending order of their names.
-/

namespace HostBridge.Manifest

variable {key value : String} {entries result : List (String × String)}

/-! ## Variables in order -/

/-- Variables that stand in ascending order of their names, each of them once. -/
def Ordered (entries : List (String × String)) : Prop := entries.Pairwise fun left right => left.1 < right.1

theorem mem_of_mem_insert {entry : String × String} (member : entry ∈ insert key value entries) :
    entry = (key, value) ∨ entry ∈ entries := by
  induction entries with
  | nil =>
    rw [insert, List.mem_singleton] at member
    exact .inl member
  | cons head rest ih =>
    rw [insert] at member
    split at member
    · rw [List.mem_cons] at member
      exact member
    · split at member
      · rw [List.mem_cons] at member
        rcases member with new | old
        · exact .inl new
        · exact .inr (List.mem_cons_of_mem head old)
      · rw [List.mem_cons] at member
        rcases member with first | later
        · exact .inr (first ▸ List.mem_cons_self)
        · rcases ih later with new | old
          · exact .inl new
          · exact .inr (List.mem_cons_of_mem head old)

theorem Ordered.insert (ordered : Ordered entries) (key value : String) :
    Ordered (Manifest.insert key value entries) := by
  induction entries with
  | nil => exact List.pairwise_singleton _ _
  | cons head rest ih =>
    obtain ⟨name, old⟩ := head
    obtain ⟨above, ordered'⟩ := List.pairwise_cons.mp ordered
    rw [Manifest.insert]
    split
    · rename_i smaller
      apply List.pairwise_cons.mpr
      refine ⟨fun entry member => ?_, ordered⟩
      rcases List.mem_cons.mp member with rfl | later
      · exact smaller
      · exact smaller.trans (above entry later)
    · rename_i notSmaller
      split
      · rename_i same
        subst same
        exact List.pairwise_cons.mpr ⟨above, ordered'⟩
      · rename_i different
        apply List.pairwise_cons.mpr
        refine ⟨fun entry member => ?_, ih ordered'⟩
        rcases mem_of_mem_insert member with rfl | later
        · exact lt_of_le_of_ne (not_lt.mp notSmaller) (Ne.symm different)
        · exact above entry later

/-- A name above all others goes to the end. -/
theorem insert_of_above (above : ∀ entry ∈ entries, entry.1 < key) :
    insert key value entries = entries ++ [(key, value)] := by
  induction entries with
  | nil => rfl
  | cons head rest ih =>
    have below := above head List.mem_cons_self
    have later : ∀ entry ∈ rest, entry.1 < key :=
      fun entry member => above entry (List.mem_cons_of_mem head member)
    rw [insert, if_neg below.not_gt, if_neg below.ne', ih later, List.cons_append]

/-- The variables are those that are found by their names. -/
theorem Ordered.mem_iff (ordered : Ordered entries) :
    (key, value) ∈ entries ↔ entries.lookup key = some value := by
  constructor
  · intro member
    obtain ⟨before, after, rfl⟩ := List.append_of_mem member
    rw [List.lookup_eq_some_iff]
    refine ⟨before, after, rfl, fun entry earlier => ?_⟩
    have smaller := (List.pairwise_append.mp ordered).2.2 entry earlier _ List.mem_cons_self
    rw [bne_iff_ne]
    exact smaller.ne'
  · intro found
    obtain ⟨before, after, rfl, -⟩ := List.lookup_eq_some_iff.mp found
    exact List.mem_append_right before List.mem_cons_self

/-! ## Going on and ending -/

variable {line : List Char} {lines before : List (List Char)} {number : Nat}

theorem readLines_silent (silent : Line.read line = .silent) :
    readLines entries number (line :: lines) = readLines entries (number + 1) lines := by
  rw [readLines, silent]

theorem readLines_assignment (defines : Defines line key value) :
    readLines entries number (line :: lines) =
      readLines (insert key value entries) (number + 1) lines := by
  rw [readLines, read_eq_assignment_iff.mpr defines]

theorem readLines_illegible (illegible : ¬Legible line) :
    readLines entries number (line :: lines) = .error ⟨number, String.ofList line⟩ := by
  rw [readLines, read_eq_malformed_iff.mpr illegible]

/-- A line that may stand in a manifest says nothing or defines a variable. -/
theorem Legible.silent_or_defines (legible : Legible line) :
    Line.read line = .silent ∨ ∃ key value, Defines line key value := by
  cases reading : Line.read line with
  | silent => exact .inl rfl
  | assignment key value => exact .inr ⟨key, value, read_eq_assignment_iff.mp reading⟩
  | malformed => exact absurd legible (read_eq_malformed_iff.mp reading)

/-- Reading goes on past lines that may stand in a manifest. -/
theorem exists_readLines_append (legible : ∀ line ∈ before, Legible line)
    (entries : List (String × String)) (number : Nat) :
    ∃ entries', ∀ lines, readLines entries number (before ++ lines) =
      readLines entries' (number + before.length) lines := by
  induction before generalizing entries number with
  | nil => exact ⟨entries, fun _ => rfl⟩
  | cons line before ih =>
    have rest : ∀ line ∈ before, Legible line :=
      fun other member => legible other (List.mem_cons_of_mem line member)
    have shift : number + (line :: before).length = number + 1 + before.length := by
      rw [List.length_cons]
      omega
    rcases (legible line List.mem_cons_self).silent_or_defines with silent | ⟨key, value, defines⟩
    · obtain ⟨entries', goesOn⟩ := ih rest entries (number + 1)
      refine ⟨entries', fun lines => ?_⟩
      rw [List.cons_append, readLines_silent silent, goesOn, shift]
    · obtain ⟨entries', goesOn⟩ := ih rest (insert key value entries) (number + 1)
      refine ⟨entries', fun lines => ?_⟩
      rw [List.cons_append, readLines_assignment defines, goesOn, shift]

/-- Either all lines may stand in a manifest or there is a first one that may not. -/
theorem all_or_first_illegible (lines : List (List Char)) :
    (∀ line ∈ lines, Legible line) ∨ ∃ before line after, lines = before ++ line :: after ∧
      (∀ earlier ∈ before, Legible earlier) ∧ ¬Legible line := by
  induction lines with
  | nil => exact .inl nofun
  | cons line lines ih =>
    by_cases legible : Legible line
    · rcases ih with all | ⟨before, other, after, rfl, earlier, illegible⟩
      · exact .inl (List.forall_mem_cons.mpr ⟨legible, all⟩)
      · refine .inr ⟨line :: before, other, after, rfl, ?_, illegible⟩
        exact List.forall_mem_cons.mpr ⟨legible, earlier⟩
    · exact .inr ⟨[], line, lines, rfl, nofun, legible⟩

/-- Reading succeeds iff every line may stand in a manifest. -/
theorem exists_readLines_eq_ok_iff (entries : List (String × String)) (number : Nat) :
    (∃ result, readLines entries number lines = .ok result) ↔ ∀ line ∈ lines, Legible line := by
  rcases all_or_first_illegible lines with all | ⟨before, line, after, rfl, earlier, illegible⟩
  · obtain ⟨entries', goesOn⟩ := exists_readLines_append all entries number
    refine iff_of_true ⟨entries', ?_⟩ all
    rw [← List.append_nil lines, goesOn []]
    rfl
  · obtain ⟨entries', goesOn⟩ := exists_readLines_append earlier entries number
    apply iff_of_false
    · rintro ⟨result, read⟩
      rw [goesOn, readLines_illegible illegible] at read
      cases read
    · intro all
      exact illegible (all line (List.mem_append_right before List.mem_cons_self))

/-- Reading fails with the first line that may not stand in a manifest. -/
theorem readLines_eq_error_iff {fault : MalformedLine} :
    readLines entries number lines = .error fault ↔ ∃ before line after,
      lines = before ++ line :: after ∧ (∀ earlier ∈ before, Legible earlier) ∧ ¬Legible line ∧
        fault = ⟨number + before.length, String.ofList line⟩ := by
  constructor
  · intro failed
    rcases all_or_first_illegible lines with all | ⟨before, line, after, rfl, earlier, illegible⟩
    · obtain ⟨result, read⟩ := (exists_readLines_eq_ok_iff entries number).mpr all
      rw [read] at failed
      cases failed
    · obtain ⟨entries', goesOn⟩ := exists_readLines_append earlier entries number
      rw [goesOn, readLines_illegible illegible] at failed
      cases failed
      exact ⟨before, line, after, rfl, earlier, illegible, rfl⟩
  · rintro ⟨before, line, after, rfl, earlier, illegible, rfl⟩
    obtain ⟨entries', goesOn⟩ := exists_readLines_append earlier entries number
    rw [goesOn, readLines_illegible illegible]

/-! ## The last definition counts -/

/-- The value that the last line that defines a variable gives to it. -/
inductive LastDefines (key value : String) : List (List Char) → Prop where
  | here {line : List Char} {lines : List (List Char)} (defines : Defines line key value)
      (last : ∀ later ∈ lines, ∀ other, ¬Defines later key other) :
      LastDefines key value (line :: lines)
  | later {line : List Char} {lines : List (List Char)} (last : LastDefines key value lines) :
      LastDefines key value (line :: lines)

theorem LastDefines.exists_mem (last : LastDefines key value lines) :
    ∃ line ∈ lines, Defines line key value := by
  induction last with
  | here defines _ => exact ⟨_, List.mem_cons_self, defines⟩
  | later _ ih =>
    obtain ⟨line, member, defines⟩ := ih
    exact ⟨line, List.mem_cons_of_mem _ member, defines⟩

/-- A line defines one variable. -/
theorem Defines.unique {key' value' : String} (defines : Defines line key value)
    (defines' : Defines line key' value') : key' = key ∧ value' = value := by
  have same := read_eq_assignment_iff.mpr defines
  rw [read_eq_assignment_iff.mpr defines', Line.assignment.injEq] at same
  exact same

/-- A line that does not define the variable does not count. -/
theorem lastDefines_cons_of_not (silent : ∀ other, ¬Defines line key other) :
    LastDefines key value (line :: lines) ↔ LastDefines key value lines := by
  constructor
  · intro last
    cases last with
    | here defines _ => exact absurd defines (silent value)
    | later last => exact last
  · exact .later

/-- After reading, variables have the values that they were last defined with, and those that
no line defines have the values that they had before. -/
theorem lookup_readLines (read : readLines entries number lines = .ok result) :
    result.lookup key = some value ↔ LastDefines key value lines ∨
      (∀ line ∈ lines, ∀ other, ¬Defines line key other) ∧ entries.lookup key = some value := by
  induction lines generalizing entries number with
  | nil =>
    cases read
    constructor
    · intro found
      exact .inr ⟨nofun, found⟩
    · intro known
      rcases known with last | ⟨-, found⟩
      · cases last
      · exact found
  | cons line lines ih =>
    have legible : Legible line :=
      (exists_readLines_eq_ok_iff entries number).mp ⟨result, read⟩ line List.mem_cons_self
    rcases legible.silent_or_defines with silent | ⟨name, content, defines⟩
    · rw [readLines_silent silent] at read
      have nothing : ∀ other, ¬Defines line key other := by
        intro other defines
        rw [read_eq_assignment_iff.mpr defines] at silent
        cases silent
      rw [ih read, lastDefines_cons_of_not nothing, List.forall_mem_cons]
      simp only [nothing, not_false_eq_true, implies_true, true_and]
    · rw [readLines_assignment defines] at read
      rw [ih read, List.forall_mem_cons]
      by_cases same : key = name
      · subst same
        rw [lookup_insert_same]
        constructor
        · rintro (last | ⟨last, found⟩)
          · exact .inl (.later last)
          · cases found
            exact .inl (.here defines last)
        · rintro (last | ⟨⟨none, -⟩, -⟩)
          · cases last with
            | here defines' last =>
              obtain ⟨-, rfl⟩ := defines.unique defines'
              exact .inr ⟨last, rfl⟩
            | later last => exact .inl last
          · exact absurd defines (none content)
      · have nothing : ∀ other, ¬Defines line key other :=
          fun other defines' => same (defines.unique defines').1
        rw [lookup_insert_other content entries same, lastDefines_cons_of_not nothing]
        simp only [nothing, not_false_eq_true, implies_true, true_and]

theorem ordered_readLines (ordered : Ordered entries)
    (read : readLines entries number lines = .ok result) : Ordered result := by
  induction lines generalizing entries number with
  | nil =>
    cases read
    exact ordered
  | cons line lines ih =>
    have legible : Legible line :=
      (exists_readLines_eq_ok_iff entries number).mp ⟨result, read⟩ line List.mem_cons_self
    rcases legible.silent_or_defines with silent | ⟨key, value, defines⟩
    · rw [readLines_silent silent] at read
      exact ih ordered read
    · rw [readLines_assignment defines] at read
      exact ih (ordered.insert key value) read

end HostBridge.Manifest
