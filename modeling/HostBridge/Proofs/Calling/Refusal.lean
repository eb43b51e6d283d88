import HostBridge.Proofs.Codec.Agreement

/-!
# Arguments that are refused

The arguments of a call are read before anything else is done with them: they are
counted, keyword arguments are looked for, and each of them is decoded.  A slot
refuses them for one of these reasons and for no other.  Neither further objects in
the heap nor the host code of the program make a difference.
-/

namespace HostBridge

variable {program other : Program}

namespace Program

section

variable (program : Program) (heap : Heap) (registry : RegistryId)

/-- One of several objects is no value of the type that is asked for, after others that
have been converted. -/
inductive RefusesOne : List HostType → List Ref → Prop
  | here {type : HostType} {types : List HostType} {ref : Ref} {refs : List Ref} {refusal : Refusal}
      (refused : Decode.fresh program heap registry type ref = .error refusal)
      (shallow : refusal ≠ .tooDeep) : RefusesOne (type :: types) (ref :: refs)
  | later {type : HostType} {types : List HostType} {ref : Ref} {refs : List Ref}
      {value : HostValue} (converted : Decode.fresh program heap registry type ref = .ok value)
      (rest : RefusesOne types refs) : RefusesOne (type :: types) (ref :: refs)

/-- A slot refuses the arguments of a call. -/
inductive Refuses (slot : Slot) (positional : List Ref) (keywords : Option Ref) : Prop
  /-- There are too few of them or too many. -/
  | count (wrong : positional.length ≠ (splitKeywords (program.slotParameters slot)).1.length)
  /-- There are keyword arguments, and the slot takes none. -/
  | keywords {dict : Ref} (given : keywords = some dict) (some : 0 < heap.dictSize dict)
      (plain : (splitKeywords (program.slotParameters slot)).2 = false)
  /-- One of them is not converted, for its kind or because its conversion panics. -/
  | argument (refused : RefusesOne program heap registry
      (splitKeywords (program.slotParameters slot)).1 positional)

end

variable {heap : Heap} {registry : RegistryId} {slot : Slot} {positional : List Ref}
  {keywords : Option Ref}

/-- Arguments are not decoded just if one of them is refused. -/
theorem refusesOne_iff {types : List HostType} {refs : List Ref} :
    program.RefusesOne heap registry types refs ↔
      ∃ fault, program.decodeArguments heap registry types refs = .error fault ∧
        fault ≠ .exhausted := by
  constructor
  · intro refuses
    induction refuses with
    | here refused shallow =>
      rw [decodeArguments, refused]
      rename_i refusal
      cases refusal with
      | error cause => exact ⟨_, rfl, by simp⟩
      | panic misuse => exact ⟨_, rfl, by simp⟩
      | tooDeep => exact absurd rfl shallow
    | later converted rest ih =>
      obtain ⟨fault, refused, reached⟩ := ih
      refine ⟨fault, ?_, reached⟩
      rw [decodeArguments, converted, refused]
      rfl
  · rintro ⟨fault, refused, reached⟩
    induction types generalizing refs with
    | nil => cases refused
    | cons type types ih =>
      cases refs with
      | nil => cases refused
      | cons ref refs =>
        rw [decodeArguments] at refused
        cases read : Decode.fresh program heap registry type ref with
        | ok value =>
          rw [read] at refused
          cases rest : program.decodeArguments heap registry types refs with
          | ok values =>
            rw [rest] at refused
            cases refused
          | error fault' =>
            rw [rest] at refused
            cases refused
            exact .later read (ih rest)
        | error refusal =>
          refine .here read ?_
          rintro rfl
          rw [read] at refused
          cases refused
          exact reached rfl

/-- How the arguments of a slot are read: first they are counted, then keyword arguments are
looked for, then each of them is decoded. -/
theorem arguments_eq (heap : Heap) (registry : RegistryId) (slot : Slot) (positional : List Ref)
    (keywords : Option Ref) :
    program.arguments heap registry slot positional keywords =
      if positional.length ≠ (splitKeywords (program.slotParameters slot)).1.length then
        .error (.raised (.wrongCount slot.exposed
          (splitKeywords (program.slotParameters slot)).1.length positional.length))
      else if ((keywords.filter fun dict => 0 < heap.dictSize dict).isSome &&
          !(splitKeywords (program.slotParameters slot)).2) = true then
        .error (.raised (.noKeywords slot.exposed))
      else
        (program.decodeArguments heap registry (splitKeywords (program.slotParameters slot)).1
          positional).map fun values =>
            if (splitKeywords (program.slotParameters slot)).2 then
              values ++ [.keywords (keywords.filter fun dict => 0 < heap.dictSize dict)]
            else values := by
  rw [arguments]
  rcases splitKeywords (program.slotParameters slot) with ⟨types, collects⟩
  dsimp only
  split
  · rfl
  · split
    · rename_i unwanted
      rfl
    · rcases program.decodeArguments heap registry types positional with fault | values <;> rfl

/-- There are keyword arguments if the dict of the caller is not empty. -/
theorem isSome_filter_keywords :
    (keywords.filter fun dict => 0 < heap.dictSize dict).isSome = true ↔
    ∃ dict, keywords = some dict ∧ 0 < heap.dictSize dict := by
  cases keywords with
  | none => simp
  | some dict => simp [Option.filter]

/-- The arguments of a call are not read just if the slot refuses them. -/
theorem refuses_iff :
    program.Refuses heap registry slot positional keywords ↔
      ∃ fault, program.arguments heap registry slot positional keywords = .error fault ∧
        fault ≠ .exhausted := by
  rw [arguments_eq]
  constructor
  · intro refuses
    split
    · exact ⟨_, rfl, by simp⟩
    · rename_i count
      split
      · exact ⟨_, rfl, by simp⟩
      · rename_i wanted
        cases refuses with
        | count wrong => exact absurd wrong count
        | keywords given more plain =>
          exact absurd (by rw [isSome_filter_keywords.mpr ⟨_, given, more⟩, plain]; rfl) wanted
        | argument refused =>
          obtain ⟨fault, refused, reached⟩ := refusesOne_iff.mp refused
          exact ⟨fault, by rw [refused]; rfl, reached⟩
  · rintro ⟨fault, refused, reached⟩
    split at refused
    · rename_i wrong
      exact .count wrong
    · split at refused
      · rename_i unwanted
        obtain ⟨given, plain⟩ := Bool.and_eq_true_iff.mp unwanted
        obtain ⟨dict, given, more⟩ := isSome_filter_keywords.mp given
        exact .keywords given more (by simpa using plain)
      · refine .argument (refusesOne_iff.mpr ?_)
        cases read : program.decodeArguments heap registry
            (splitKeywords (program.slotParameters slot)).1 positional with
        | ok values =>
          rw [read] at refused
          cases refused
        | error fault' =>
          rw [read] at refused
          cases refused
          exact ⟨fault, rfl, reached⟩

/-- With further objects, the same arguments are refused. -/
theorem RefusesOne.enlarge {larger : Heap} {types : List HostType} {refs : List Ref}
    (refuses : program.RefusesOne heap registry types refs) (enlarges : heap.Enlarges larger)
    (used : ∀ ref ∈ refs, ref.place < heap.size) :
    program.RefusesOne larger registry types refs := by
  induction refuses with
  | @here type types ref refs refusal refused shallow =>
    have like := Decode.fresh_like program enlarges registry type (used ref (by simp))
    rw [refused] at like
    generalize read : Decode.fresh program larger registry type ref = result at like
    cases like with
    | error cause cause' => exact .here read (by simp)
    | panic misuse misuse' => exact .here read (by simp)
    | tooDeep result => exact absurd rfl shallow
  | @later type types ref refs value converted rest ih =>
    have like := Decode.fresh_like program enlarges registry type (used ref (by simp))
    rw [converted] at like
    generalize read : Decode.fresh program larger registry type ref = result at like
    cases like with
    | ok value => exact .later read (ih fun other member => used other (by simp [member]))

theorem Refuses.enlarge {larger : Heap} (enlarges : heap.Enlarges larger)
    (refuses : program.Refuses heap registry slot positional keywords)
    (used : ∀ ref ∈ positional, ref.place < heap.size)
    (keywordsUsed : ∀ ref ∈ keywords, ref.place < heap.size) :
    program.Refuses larger registry slot positional keywords := by
  cases refuses with
  | count wrong => exact .count wrong
  | keywords given more plain =>
    refine .keywords given ?_ plain
    rwa [Heap.dictSize, Heap.dict?, enlarges.bodies _ (keywordsUsed _ given)]
  | argument refused => exact .argument (refused.enlarge enlarges used)

/-- Host code takes no part in reading arguments. -/
theorem Declares.arguments (declares : program.Declares other) (heap : Heap)
    (registry : RegistryId) (slot : Slot) (positional : List Ref) (keywords : Option Ref) :
    other.arguments heap registry slot positional keywords =
      program.arguments heap registry slot positional keywords := by
  have decode : ∀ types refs, other.decodeArguments heap registry types refs =
      program.decodeArguments heap registry types refs := by
    intro types
    induction types with
    | nil => intro refs; rfl
    | cons type types ih =>
      intro refs
      cases refs with
      | nil => rfl
      | cons ref refs =>
        simp only [decodeArguments, Decode.fresh_congr declares, declares.typeName, ih]
  rw [arguments_eq, arguments_eq, declares.slotParameters, decode]

end Program

end HostBridge
