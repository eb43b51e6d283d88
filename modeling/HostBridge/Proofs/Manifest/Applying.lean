import HostBridge.Proofs.Interpreter.Binding
import HostBridge.Proofs.Manifest.Grammar

/-!
# Applying manifests

The names in a manifest are such as the process environment takes, since they are not empty and
hold no equals sign.  NUL characters are another matter: reading a manifest lets them pass and the
environment does not.  So a manifest without them is applied as a whole, and after it an
interpreter starts that requires any of its variables.  Otherwise applying panics at the first
variable with a NUL character, and the variables in front of it have been set by then.
-/

namespace HostBridge

open Op

/-- A variable with a NUL character in its name or in its value. -/
def Manifest.HoldsNul (entry : String × String) : Prop :=
  '\x00' ∈ entry.1.toList ∨ '\x00' ∈ entry.2.toList

/-- A variable that a manifest can hold is refused for a NUL character only. -/
theorem Manifest.Writable.refusal?_eq_none_iff {key value : String}
    (writable : Writable key value) :
    Environment.refusal? key value = none ↔ ¬HoldsNul (key, value) := by
  have proper : ¬(key = "" ∨ '=' ∈ key.toList) := by
    rintro (empty | marked)
    · exact writable.named empty
    · exact writable.plain marked
  rw [Environment.refusal?, if_neg proper, ite_eq_right_iff]
  constructor
  · intro free nul
    cases free nul
  · intro free nul
    exact absurd nul free

/-! ## Setting variables one after the other -/

/-- The world in which variables have been set, one after the other. -/
def World.applying (world : World) (entries : List (String × String)) : World :=
  entries.foldl (fun world (name, value) =>
    (world.note .debug s!"env {name}={value}").setVariable name value) world

namespace World

variable {world : World} {entries : List (String × String)} {name : String}

/-- Other variables stay as they are. -/
theorem value?_applying_other (plain : '=' ∉ name.toList)
    (named : ∀ entry ∈ entries, '=' ∉ entry.1.toList) (other : ∀ entry ∈ entries, entry.1 ≠ name) :
    (world.applying entries).environment.value? name = world.environment.value? name := by
  induction entries generalizing world with
  | nil => rfl
  | cons entry entries ih =>
    obtain ⟨namedFirst, namedRest⟩ := List.forall_mem_cons.mp named
    obtain ⟨otherFirst, otherRest⟩ := List.forall_mem_cons.mp other
    refine (ih namedRest otherRest).trans ?_
    exact Environment.value?_set_other world.environment entry.2 plain namedFirst otherFirst.symm

/-- Variables that are set in the order of their names have the values that they were set to. -/
theorem value?_applying_mem (ordered : Manifest.Ordered entries)
    (named : ∀ entry ∈ entries, '=' ∉ entry.1.toList) {entry : String × String}
    (member : entry ∈ entries) :
    (world.applying entries).environment.value? entry.1 = some entry.2 := by
  induction entries generalizing world with
  | nil => cases member
  | cons first rest ih =>
    obtain ⟨above, ordered⟩ := List.pairwise_cons.mp ordered
    obtain ⟨namedFirst, namedRest⟩ := List.forall_mem_cons.mp named
    rcases List.mem_cons.mp member with rfl | later
    · refine (value?_applying_other namedFirst namedRest ?_).trans ?_
      · intro later member
        exact (above later member).ne'
      · exact Environment.value?_set_same world.environment entry.1 entry.2
    · exact ih ordered namedRest later

end World

namespace Op

variable {world : World} {before rest : List (String × String)} {key value : String}

theorem run_applyManifest_cons (world : World) (name value : String)
    (rest : List (String × String)) :
    (applyManifest ⟨(name, value) :: rest⟩).run world =
      (setVariable name value >>= fun _ => applyManifest ⟨rest⟩).run
        (world.note .debug s!"env {name}={value}") := rfl

/-- Applying goes on past variables that the environment takes. -/
theorem run_applyManifest_append
    (taken : ∀ entry ∈ before, Environment.refusal? entry.1 entry.2 = none) :
    (applyManifest ⟨before ++ rest⟩).run world =
      (applyManifest ⟨rest⟩).run (world.applying before) := by
  induction before generalizing world with
  | nil => rfl
  | cons entry before ih =>
    obtain ⟨first, later⟩ := List.forall_mem_cons.mp taken
    have sets : (setVariable entry.1 entry.2).run
        (world.note .debug s!"env {entry.1}={entry.2}") =
          (.ok (), (world.note .debug s!"env {entry.1}={entry.2}").setVariable entry.1 entry.2) := by
      rw [setVariable, first]
      rfl
    rw [List.cons_append, run_applyManifest_cons, Operation.run_bind_of_ok sets, ih later]
    rfl

theorem run_applyManifest (taken : ∀ entry ∈ before, Environment.refusal? entry.1 entry.2 = none) :
    (applyManifest ⟨before⟩).run world = (.ok (), world.applying before) := by
  have ran : (applyManifest ⟨before ++ []⟩).run world =
      (applyManifest ⟨[]⟩).run (world.applying before) := run_applyManifest_append taken
  rwa [List.append_nil] at ran

/-- Applying ends at a variable that the environment refuses. -/
theorem run_applyManifest_of_refused {refusal : Environment.Refusal}
    (taken : ∀ entry ∈ before, Environment.refusal? entry.1 entry.2 = none)
    (refused : Environment.refusal? key value = some refusal) :
    (applyManifest ⟨before ++ (key, value) :: rest⟩).run world =
      (.error (.panicked (.variableRefused key value refusal)),
        (world.applying before).note .debug s!"env {key}={value}") := by
  rw [run_applyManifest_append taken, run_applyManifest_cons]
  apply Operation.run_bind_of_error
  rw [setVariable, refused]
  rfl

end Op

/-! ## Manifests that were read -/

namespace Manifest

variable {text : String} {manifest : Manifest}

/-- An interpreter starts on a free thread if the environment has what it requires. -/
theorem exists_run_start {world : World} {configuration : Configuration}
    (free : current?.run world = (.ok none, world))
    (given : ∀ name ∈ configuration.required, (world.environment.value? name).isSome = true) :
    ∃ id after, (start configuration).run world = (.ok (.ok id), after) := by
  have nothing : configuration.required.find? (fun name =>
      (world.environment.value? name).isNone) = none := by
    rw [List.find?_eq_none]
    intro name required missing
    rw [Option.isNone_iff_eq_none] at missing
    have there := given name required
    rw [missing] at there
    cases there
  exact ⟨_, _, run_start_of_free free nothing⟩

/--
A manifest that was read is applied as a whole if no NUL character is in it: each of its variables
has its value then, others are as they were, and an interpreter that requires any of its names
starts on a free thread.  If there is a NUL character, applying panics at the first variable with
one; those in front of it have their values then, and others are as they were.
-/
theorem applied_unless_nul (parsed : parse text = .ok manifest) (world : World) :
    ((∀ entry ∈ manifest.entries, ¬HoldsNul entry) → ∃ after,
      (applyManifest manifest).run world = (.ok (), after) ∧
      (∀ key value, manifest.get? key = some value →
        after.environment.value? key = some value) ∧
      (∀ name, '=' ∉ name.toList → manifest.get? name = none →
        after.environment.value? name = world.environment.value? name) ∧
      ∀ configuration later, (∀ name ∈ configuration.required, (manifest.get? name).isSome = true) →
        later.environment = after.environment → current?.run later = (.ok none, later) →
          ∃ id started, (start configuration).run later = (.ok (.ok id), started)) ∧
    (∀ before key value rest, manifest.entries = before ++ (key, value) :: rest →
      (∀ entry ∈ before, ¬HoldsNul entry) → HoldsNul (key, value) → ∃ after,
        (applyManifest manifest).run world =
          (.error (.panicked (.variableRefused key value .nul)), after) ∧
        (∀ entry ∈ before, after.environment.value? entry.1 = some entry.2) ∧
        ∀ name, '=' ∉ name.toList → (∀ entry ∈ before, entry.1 ≠ name) →
          after.environment.value? name = world.environment.value? name) := by
  have writable : ∀ entry ∈ manifest.entries, Writable entry.1 entry.2 :=
    fun entry member => writable_of_parse parsed member
  have ordered := ordered_of_parse parsed
  constructor
  · intro free
    have taken : ∀ entry ∈ manifest.entries, Environment.refusal? entry.1 entry.2 = none :=
      fun entry member => (writable entry member).refusal?_eq_none_iff.mpr (free entry member)
    have named : ∀ entry ∈ manifest.entries, '=' ∉ entry.1.toList :=
      fun entry member => (writable entry member).plain
    have holds : ∀ key value, manifest.get? key = some value →
        (world.applying manifest.entries).environment.value? key = some value := by
      intro key value found
      exact World.value?_applying_mem ordered named (ordered.mem_iff.mpr found)
    refine ⟨world.applying manifest.entries, run_applyManifest taken, holds, ?_, ?_⟩
    · intro name plain absent
      apply World.value?_applying_other plain named
      rintro entry member rfl
      have found : manifest.get? entry.1 = some entry.2 := ordered.mem_iff.mp member
      rw [absent] at found
      cases found
    · intro configuration later required same unbound
      apply exists_run_start unbound
      intro name among
      obtain ⟨value, found⟩ := Option.isSome_iff_exists.mp (required name among)
      rw [same, holds name value found]
      rfl
  · intro before key value rest split free nul
    rw [split] at writable ordered
    have front : ∀ entry ∈ before, Writable entry.1 entry.2 :=
      fun entry member => writable entry (List.mem_append_left _ member)
    have taken : ∀ entry ∈ before, Environment.refusal? entry.1 entry.2 = none :=
      fun entry member => (front entry member).refusal?_eq_none_iff.mpr (free entry member)
    have named : ∀ entry ∈ before, '=' ∉ entry.1.toList :=
      fun entry member => (front entry member).plain
    have refused : Environment.refusal? key value = some .nul := if_pos nul
    have same : manifest = ⟨before ++ (key, value) :: rest⟩ := by rw [← split]
    refine ⟨_, same ▸ run_applyManifest_of_refused taken refused, ?_, ?_⟩
    · intro entry member
      exact World.value?_applying_mem (List.pairwise_append.mp ordered).1 named member
    · intro name plain other
      exact World.value?_applying_other plain named other

/-- A manifest with two variables is applied, and an interpreter that requires both starts. -/
theorem applied_unless_nul_two : ∃ manifest after id started,
    parse "B=x=y\nA=1" = .ok manifest ∧
    (applyManifest manifest).run World.initial = (.ok (), after) ∧
    (start ⟨"", ["A", "B"], 128⟩).run after = (.ok (.ok id), started) := by
  have parsed : parse "B=x=y\nA=1" = .ok ⟨[("A", "1"), ("B", "x=y")]⟩ := by decide
  obtain ⟨whole, -⟩ := applied_unless_nul parsed World.initial
  have free : ∀ entry ∈ [("A", "1"), ("B", "x=y")], ¬HoldsNul entry := by simp [HoldsNul]
  obtain ⟨after, ran, -, -, starts⟩ := whole free
  have unbound : current?.run after = (.ok none, after) := by
    have same : after = World.initial.applying [("A", "1"), ("B", "x=y")] :=
      congrArg Prod.snd ran.symm
    rw [same]
    rfl
  obtain ⟨id, started, begins⟩ := starts ⟨"", ["A", "B"], 128⟩ after (by decide) rfl unbound
  exact ⟨_, after, id, started, parsed, ran, begins⟩

/-- A manifest with a NUL character is accepted, and applying it stops half way: one variable is
set and another one is not, so an interpreter that requires that one does not start. -/
theorem half_applied : ∃ manifest after, parse "A=1\nB=\x00\nC=3" = .ok manifest ∧
    manifest.get? "C" = some "3" ∧
    (applyManifest manifest).run World.initial =
      (.error (.panicked (.variableRefused "B" "\x00" .nul)), after) ∧
    after.environment.value? "A" = some "1" ∧ after.environment.value? "C" = none ∧
    (start ⟨"", ["C"], 128⟩).run after = (.ok (.error (.missingVariable "C")), after) := by
  refine ⟨⟨[("A", "1"), ("B", "\x00"), ("C", "3")]⟩, _, by decide, rfl, rfl, by decide, by decide, ?_⟩
  exact run_start_of_missing rfl (by decide)

end Manifest

end HostBridge
