import HostBridge.Text.Blank

/-!
# Environment manifests

A manifest is a text with one `KEY=VALUE` per line.  Blank lines and lines that
start with `#` say nothing; blanks around keys and values do not count; a value
may itself contain `=`.  Of several lines with one key the last one holds.

The variables of a manifest are kept in ascending order of their keys, so two
manifests that define the same variables are equal.
-/

namespace HostBridge

/-- The variables that a manifest defines, in ascending order of their keys. -/
structure Manifest where
  entries : List (String × String)
  deriving DecidableEq, Repr, Inhabited

/-- A line that is neither blank nor a comment nor an assignment. -/
structure MalformedLine where
  /-- Counted from one. -/
  number : Nat
  /-- The line without the blanks around it. -/
  content : String
  deriving DecidableEq, Repr

namespace MalformedLine

def message (line : MalformedLine) : String :=
  s!"line {line.number}: expected KEY=VALUE, got '{line.content}'"

end MalformedLine

namespace Manifest

/-- Where a project keeps its manifest. -/
def standardPath : String := ".deps/runtime/env.txt"

/-- Define a variable, replacing an earlier definition. -/
def insert (key value : String) : List (String × String) → List (String × String)
  | [] => [(key, value)]
  | (name, old) :: rest =>
    if key < name then (key, value) :: (name, old) :: rest
    else if key = name then (key, value) :: rest
    else (name, old) :: insert key value rest

/-- A variable has the value that it was defined with last. -/
@[simp]
theorem lookup_insert_same (key value : String) (entries : List (String × String)) :
    (insert key value entries).lookup key = some value := by
  induction entries with
  | nil => simp [insert]
  | cons head rest below =>
    obtain ⟨name, old⟩ := head
    unfold insert
    split
    · simp
    · split
      · simp
      · rename_i different
        have apart : (key == name) = false := by simpa using different
        simpa [List.lookup_cons, apart] using below

/-- Defining a variable leaves the others as they are. -/
theorem lookup_insert_other {key other : String} (value : String)
    (entries : List (String × String)) (distinct : other ≠ key) :
    (insert key value entries).lookup other = entries.lookup other := by
  have apart : (other == key) = false := by simpa using distinct
  induction entries with
  | nil => simp [insert, List.lookup_cons, apart]
  | cons head rest below =>
    obtain ⟨name, old⟩ := head
    unfold insert
    split
    · simp [List.lookup_cons, apart]
    · split
      · rename_i same
        subst same
        simp [List.lookup_cons, apart]
      · by_cases here : other = name
        · subst here
          simp
        · have away : (other == name) = false := by simpa using here
          simpa [List.lookup_cons, away] using below

/-- What one line of a manifest says. -/
inductive Line where
  | silent
  | assignment (key value : String)
  | malformed
  deriving DecidableEq, Repr

/-- Read a line from which the blanks at both ends have been removed. -/
def Line.read (line : List Char) : Line :=
  if line.isEmpty || line.head? == some '#' then .silent
  else
    let key := trimBlank (line.takeWhile (· != '='))
    if line.contains '=' && !key.isEmpty then
      .assignment (String.ofList key)
        (String.ofList (trimBlank ((line.dropWhile (· != '=')).drop 1)))
    else .malformed

/-- The lines of a text.  A line ends at a line feed; a carriage return before
it is a blank like any other. -/
def lines (text : String) : List (List Char) :=
  (text.toList.splitOn '\n').map trimBlank

/-- Read lines, the first of which has a given number, into the variables that
earlier lines have defined. -/
def readLines (entries : List (String × String)) (number : Nat) :
    List (List Char) → Except MalformedLine (List (String × String))
  | [] => .ok entries
  | line :: rest =>
    match Line.read line with
    | .silent => readLines entries (number + 1) rest
    | .assignment key value => readLines (insert key value entries) (number + 1) rest
    | .malformed => .error ⟨number, String.ofList line⟩

/-- Read the text of a manifest. -/
def parse (text : String) : Except MalformedLine Manifest :=
  (readLines [] 1 (lines text)).map fun entries => ⟨entries⟩

/-- The value of a variable. -/
def get? (manifest : Manifest) (key : String) : Option String :=
  manifest.entries.lookup key

/-- Write a manifest, one variable per line. -/
def render (manifest : Manifest) : String :=
  String.join (manifest.entries.map fun (key, value) => key ++ "=" ++ value ++ "\n")

end Manifest

end HostBridge
