/-!
# The process environment

The environment is a list of texts of the form `name=value`.  A name is looked up
by what stands in front of an equals sign, whichever it is.  So a name that holds
an equals sign itself is found in a variable whose value goes on with the rest of
it; names without one are found as they were set, whatever else is set.

Not every variable can be set.  A NUL character would end the entry that it stands
in, and a name has to be there and to hold no equals sign.
-/

namespace HostBridge

/-- Variables with their values, the one that was set last in front. -/
structure Environment where
  settings : List (String × String)
  deriving DecidableEq, Repr

namespace Environment

/-- The environment without variables. -/
def empty : Environment := ⟨[]⟩

/-- A variable as the environment holds it. -/
def entry (setting : String × String) : List Char :=
  setting.1.toList ++ '=' :: setting.2.toList

/-- What follows a name and an equals sign in an entry. -/
def read? (name : String) (setting : String × String) : Option String :=
  let mark := name.toList ++ ['=']
  if mark.isPrefixOf (entry setting) then
    some (String.ofList ((entry setting).drop mark.length))
  else none

/-- The value that is found under a name. -/
def value? (environment : Environment) (name : String) : Option String :=
  environment.settings.findSome? (read? name)

/-- Set a variable, which replaces the one of the same name. -/
def set (environment : Environment) (name value : String) : Environment :=
  ⟨(name, value) :: environment.settings.filter (·.1 ≠ name)⟩

/-- Why a variable cannot be set. -/
inductive Refusal where
  /-- A NUL character in the name or in the value. -/
  | nul
  /-- No name, or one that holds an equals sign. -/
  | name
  deriving DecidableEq, Repr

/-- The reason that the operating system gives. -/
def Refusal.reason : Refusal → String
  | .nul => "file name contained an unexpected NUL byte"
  | .name => "Invalid argument (os error 22)"

/-- Whether a variable is refused, and why. -/
def refusal? (name value : String) : Option Refusal :=
  if '\x00' ∈ name.toList ∨ '\x00' ∈ value.toList then some .nul
  else if name = "" ∨ '=' ∈ name.toList then some .name
  else none

theorem read?_self (name value : String) : read? name (name, value) = some value := by
  simp [read?, entry]

/-- Among texts whose names hold no equals sign the mark settles the name. -/
theorem eq_of_marked {name key rest : List Char} (plain : '=' ∉ name)
    (plainKey : '=' ∉ key) (found : name ++ ['='] <+: key ++ '=' :: rest) : name = key := by
  induction name generalizing key with
  | nil =>
    cases key with
    | nil => rfl
    | cons char key => simp_all
  | cons char name ih =>
    cases key with
    | nil => simp_all
    | cons other key =>
      simp only [List.cons_append, List.cons_prefix_cons, List.mem_cons, not_or] at *
      rw [found.1, ih plain.2 plainKey.2 found.2]

theorem read?_other {name key : String} (value : String) (plain : '=' ∉ name.toList)
    (plainKey : '=' ∉ key.toList) (apart : name ≠ key) : read? name (key, value) = none := by
  simp only [read?, entry, List.isPrefixOf_iff_prefix]
  refine if_neg fun found => apart ?_
  exact String.toList_inj.mp (eq_of_marked plain plainKey found)

theorem value?_set_same (environment : Environment) (name value : String) :
    (environment.set name value).value? name = some value := by
  simp [value?, set, read?_self]

theorem value?_set_other (environment : Environment) {name key : String} (value : String)
    (plain : '=' ∉ name.toList) (plainKey : '=' ∉ key.toList) (apart : name ≠ key) :
    (environment.set key value).value? name = environment.value? name := by
  obtain ⟨settings⟩ := environment
  simp only [value?, set, List.findSome?_cons, read?_other value plain plainKey apart]
  induction settings with
  | nil => rfl
  | cons setting settings ih =>
    obtain ⟨found, content⟩ := setting
    by_cases same : found = key
    · subst same
      simpa [read?_other content plain plainKey apart] using ih
    · simp only [ne_eq, same, not_false_eq_true, decide_true, List.filter_cons_of_pos,
        List.findSome?_cons]
      cases read? name (found, content) with
      | none => exact ih
      | some _ => rfl

end Environment

end HostBridge
