import HostBridge.Proofs.Calling.Refusal
import HostBridge.Proofs.Codec.RoundTrip

/-!
# Arguments on their way into host code

Values are encoded, and their objects are passed in a call.  They are decoded before host code
runs, which is given values that are like those.  A dict of keyword arguments is handed on as it
is; in place of an empty one host code gets one of its own.
-/

namespace HostBridge

open Op

variable {program : Program} {registry : RegistryId}
  {registered : StructId → Prop} {world : World} {held : Multiset Ref} {keywords : Option Ref}

/--
The arguments that host code is given for values that were encoded and a dict of keyword
arguments, if there is one: values that are like them, and the dict.  An empty dict is replaced
by one that is made on the way.
-/
inductive Passed (values : List HostValue) (before after : World) :
    Option Ref → List HostValue → Prop
  | plain {backs : List HostValue}
      (alike : HostValue.unifiedAll values = HostValue.unifiedAll backs) :
    Passed values before after none backs
  | given {backs : List HostValue} {dict : Ref}
      (alike : HostValue.unifiedAll values = HostValue.unifiedAll backs)
      (entries : 0 < before.heap.dictSize dict) :
    Passed values before after (some dict) (backs ++ [.keywords (some dict)])
  | made {backs : List HostValue} {dict new : Ref}
      (alike : HostValue.unifiedAll values = HostValue.unifiedAll backs)
      (empty : before.heap.dictSize dict = 0) (unused : before.heap.size ≤ new.place)
      (reading : after.heap.body new = .dict .empty) :
    Passed values before after (some dict) (backs ++ [.keywords (some new)])

/-- A dict of keyword arguments has as many entries later as it has now. -/
theorem World.Extends.dictSize {first second : World} (more : first.Extends second) {dict : Ref}
    (is : first.heap.isDict dict = true) :
    second.heap.dictSize dict = first.heap.dictSize dict := by
  have same : second.heap.body dict = first.heap.body dict := by
    refine more.body rfl fun none => ?_
    rw [Heap.isDict, none] at is
    cases is
  rw [Heap.dictSize, Heap.dictSize, Heap.dict?, Heap.dict?, same]

/-- Arguments may be looked at from an earlier world. -/
theorem Passed.since {earlier before after : World} {values arguments : List HostValue}
    (passed : Passed values before after keywords arguments) (more : earlier.Extends before)
    (larger : earlier.heap.size ≤ before.heap.size)
    (dict : ∀ ref ∈ keywords, earlier.heap.isDict ref = true) :
    Passed values earlier after keywords arguments := by
  cases passed with
  | plain alike => exact .plain alike
  | given alike entries =>
    rw [more.dictSize (dict _ rfl)] at entries
    exact .given alike entries
  | made alike empty unused reading =>
    rw [more.dictSize (dict _ rfl)] at empty
    exact .made alike empty (larger.trans unused) reading

namespace DenotesAll

/-- Objects that stand for values are decoded as arguments that are like them. -/
theorem decodeArguments (founded : program.Founded) (grounded : world.Grounded) {bound : Nat}
    {types : List HostType} {values : List HostValue} {refs : List Ref}
    (each : DenotesAll program world.heap registry registered bound types values refs) :
    ∃ backs, program.decodeArguments world.heap registry types refs = .ok backs ∧
      HostValue.unifiedAll values = HostValue.unifiedAll backs := by
  induction types generalizing values refs with
  | nil =>
    cases each
    exact ⟨[], rfl, rfl⟩
  | cons type types ih =>
    cases each with
    | cons _ first rest =>
      obtain ⟨back, read, alike⟩ := first.fresh founded grounded
      obtain ⟨backs, reads, alikes⟩ := ih rest
      refine ⟨back :: backs, ?_, ?_⟩
      · rw [Program.decodeArguments, read]
        dsimp only
        rw [reads]
        rfl
      · rw [HostValue.unifiedAll, HostValue.unifiedAll, alike, alikes]

variable {bound : Nat} {slot : Slot} {values : List HostValue} {refs : List Ref}

/-- A slot accepts them, along with a dict of keyword arguments if it collects these. -/
theorem arguments (founded : program.Founded) (grounded : world.Grounded)
    (each : DenotesAll program world.heap registry registered bound
      (Program.splitKeywords (program.slotParameters slot)).1 values refs)
    (collects : keywords.isSome = (Program.splitKeywords (program.slotParameters slot)).2) :
    ∃ backs, HostValue.unifiedAll values = HostValue.unifiedAll backs ∧
      program.arguments world.heap registry slot refs keywords =
        .ok (backs ++ keywords.toList.map fun dict =>
          .keywords (if 0 < world.heap.dictSize dict then some dict else none)) := by
  obtain ⟨backs, read, alike⟩ := each.decodeArguments founded grounded
  refine ⟨backs, alike, ?_⟩
  rw [Program.arguments_eq, if_neg (not_not.mpr each.length), read, ← collects]
  cases keywords with
  | none => simp [Except.map]
  | some dict =>
    rw [if_neg (by simp)]
    by_cases entries : 0 < world.heap.dictSize dict
    · simp [Option.filter, entries, Except.map]
    · simp [Option.filter, entries, Except.map]

/-- They are adopted, which makes the dict that may be missing, and passed. -/
theorem passed (founded : program.Founded) (sound : world.Sound program held)
    (each : DenotesAll program world.heap registry registered bound
      (Program.splitKeywords (program.slotParameters slot)).1 values refs)
    (collects : keywords.isSome = (Program.splitKeywords (program.slotParameters slot)).2)
    (regular : HostValue.RegularAll values) (used : ∀ ref ∈ refs, ref.place < world.heap.size)
    (keywordsUsed : ∀ ref ∈ keywords, ref.place < world.heap.size) :
    ∃ read arguments start,
      program.arguments world.heap registry slot refs keywords = .ok read ∧
      (adoptAll read).run world = (.ok arguments, start) ∧
      World.Makes program Permission.nothing world [] start (HostValue.referencesAll arguments) ∧
      HostValue.fitsAll program (program.slotParameters slot) arguments = true ∧
      Passed values world start keywords arguments := by
  obtain ⟨backs, alike, accepted⟩ := each.arguments founded sound.grounded collects
  have valid := Program.valid_arguments founded sound used keywordsUsed accepted
  have regularBacks : HostValue.RegularAll backs := by
    rwa [← HostValue.regularAll_unified, ← alike, HostValue.regularAll_unified]
  have retained : World.Makes program Permission.nothing world [] (world.retainAll _) _ :=
    World.Makes.retainAll valid.2
  have larger := (retained.path 0).grows.places
  refine ⟨_, _, _, accepted, rfl, retained.trans (HostValue.makes_completedAll _ _), ?_, ?_⟩
  · rw [HostValue.fitsAll_completedAll]
    exact valid.1
  · rw [HostValue.completedAll_append_of_regular regularBacks]
    cases keywords with
    | none =>
      rw [Option.toList_none, List.map_nil, HostValue.completedAll, List.append_nil]
      exact .plain alike
    | some dict =>
      rw [Option.toList_some, List.map_singleton] at larger ⊢
      by_cases entries : 0 < world.heap.dictSize dict
      · rw [if_pos entries]
        exact .given alike entries
      · rw [if_neg entries] at larger ⊢
        exact .made alike (Nat.eq_zero_of_not_pos entries) larger
          (Heap.body_eq (Heap.cell?_push_next _ _))

/-- They are passed to a slot in a world that has been prepared for the call: a reference has been
taken that is to be given back when the call ends. -/
theorem entered {drained noted : World} {self : Ref} (founded : program.Founded)
    (sound : drained.Sound program held)
    (makes : World.Makes program Permission.nothing drained [] noted [self])
    (each : DenotesAll program drained.heap registry registered bound
      (Program.splitKeywords (program.slotParameters slot)).1 values refs)
    (collects : keywords.isSome = (Program.splitKeywords (program.slotParameters slot)).2)
    (regular : HostValue.RegularAll values) (used : ∀ ref ∈ refs, ref.place < drained.heap.size)
    (keywordsUsed : ∀ ref ∈ keywords, ref.place < drained.heap.size)
    (dict : ∀ ref ∈ keywords, drained.heap.isDict ref = true) :
    ∃ read arguments start,
      program.arguments noted.heap registry slot refs keywords = .ok read ∧
      (adoptAll read).run noted = (.ok arguments, start) ∧
      HostValue.fitsAll program (program.slotParameters slot) arguments = true ∧
      noted.Extends start ∧ World.Leads program Permission.nothing drained start ∧
      start.Sound program (HostValue.referencesAll arguments + ({self} + held)) ∧
      Passed values drained start keywords arguments := by
  have soundNoted : noted.Sound program (held + [self]) := (makes.path_new held).sound sound
  have larger := (makes.path 0).grows.places
  obtain ⟨read, arguments, start, accepted, adopting, making, fit, passed⟩ :=
    (each.extends makes.more).passed founded soundNoted collects regular
      (fun ref member => Nat.lt_of_lt_of_le (used ref member) larger)
      fun ref member => Nat.lt_of_lt_of_le (keywordsUsed ref member) larger
  have soundStart := (making.path_new _).sound soundNoted
  rw [add_comm, add_comm held] at soundStart
  exact ⟨read, arguments, start, accepted, adopting, fit, making.more, makes.leads.trans making.leads,
    soundStart, passed.since makes.more larger dict⟩

end DenotesAll

end HostBridge
