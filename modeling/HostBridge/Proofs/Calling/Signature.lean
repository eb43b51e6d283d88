import HostBridge.Proofs.Calling.Refusal
import HostBridge.Proofs.Session.Reachable

/-!
# Signatures and arguments

The parameters of a slot are read three times.  The signature that a function shows has an entry for
each positional argument and one for keyword arguments.  A call is checked for the number of its
arguments and for keyword arguments before any of them is converted.  And host code moves its
arguments out of a vector of values that know their types, one position after the other.

This module reads the signature back from its text, gives the vector and the thunk that empties it,
and shows that all three agree: the checks ask for what the signature announces, and what passes
them and can be converted fills the vector in such a way that the thunk gets every argument.
-/

namespace HostBridge

/-! ## Reading a signature -/

namespace Signature

/-- The entries of a signature: what commas separate, without brackets and blanks. -/
def entries (shown : String) : List (List Char) :=
  (shown.toList.filter fun letter => letter ∉ ['(', ')', ' ']).splitOn ','

/-- Positional arguments go by numbers. -/
def numbered (entry : List Char) : Bool :=
  entry.take 3 = "arg".toList && 3 < entry.length && (entry.drop 3).all Char.isDigit

/-- How many positional arguments a signature announces. -/
def positional (shown : String) : Nat := (entries shown).countP numbered

/-- Whether a signature announces keyword arguments. -/
def collects (shown : String) : Bool := (entries shown).contains "**kwargs".toList

/-- Whether a part of a signature is one entry of it. -/
def Unbroken (part : String) : Prop := ∀ letter ∈ part.toList, letter ∉ ['(', ')', ' ', ',']

theorem filter_intercalate (keep : Char → Bool) (separator : List Char) (parts : List (List Char)) :
    (separator.intercalate parts).filter keep =
      (separator.filter keep).intercalate (parts.map (List.filter keep)) := by
  induction parts with
  | nil => rfl
  | cons part parts ih =>
    cases parts with
    | nil => simp
    | cons next rest =>
      simp only [List.intercalate_cons_cons, List.append_assoc, List.filter_append, List.map_cons, ih]

/-- Parts are found again, and nothing else. -/
theorem entries_brackets {parts : List String} (unbroken : ∀ part ∈ parts, Unbroken part) :
    entries ("(" ++ ", ".intercalate parts ++ ")") =
      if parts = [] then [[]] else parts.map String.toList := by
  have kept : ∀ part ∈ parts.map String.toList,
      part.filter (fun letter => decide (letter ∉ ['(', ')', ' '])) = part := by
    simp only [List.mem_map, forall_exists_index, and_imp, forall_apply_eq_imp_iff₂]
    intro part member
    refine List.filter_eq_self.mpr fun letter inside => ?_
    have clean := unbroken part member letter inside
    simp only [List.mem_cons, List.not_mem_nil, or_false, not_or] at clean ⊢
    simp [clean]
  have whole : ("(" ++ ", ".intercalate parts ++ ")").toList.filter
      (fun letter => decide (letter ∉ ['(', ')', ' '])) =
        [','].intercalate (parts.map String.toList) := by
    rw [String.toList_append, String.toList_append, String.toList_intercalate, List.filter_append,
      List.filter_append, filter_intercalate, List.map_congr_left kept, List.map_id']
    simp
  rw [entries, whole]
  split
  · next none =>
    rw [none]
    rfl
  · next some =>
    refine List.splitOn_intercalate ',' ?_ (by simpa using some)
    simp only [List.mem_map, forall_exists_index, and_imp, forall_apply_eq_imp_iff₂]
    intro part member inside
    exact unbroken part member _ inside (by simp)

theorem toList_numeral (index : Nat) :
    (s!"arg{index}").toList = "arg".toList ++ Nat.toDigits 10 index := by
  rw [← Nat.toList_repr]
  simp only [toString, String.toList_append]

theorem isDigit_of_mem {index : Nat} {letter : Char} (member : letter ∈ Nat.toDigits 10 index) :
    letter.isDigit = true :=
  Nat.isDigit_of_mem_toDigits (by decide) (by decide) member

theorem unbroken_numeral (index : Nat) : Unbroken s!"arg{index}" := by
  intro letter member broken
  rw [toList_numeral, List.mem_append] at member
  rcases member with name | digit
  · simp at name
    simp only [List.mem_cons, List.not_mem_nil, or_false] at broken
    rcases name with rfl | rfl | rfl <;> simp at broken
  · have number := isDigit_of_mem digit
    simp only [List.mem_cons, List.not_mem_nil, or_false] at broken
    rcases broken with rfl | rfl | rfl | rfl <;> exact absurd number (by decide)

theorem numbered_numeral (index : Nat) : numbered (s!"arg{index}").toList = true := by
  have some : 0 < (Nat.toDigits 10 index).length := Nat.length_toDigits_pos
  have digits : (Nat.toDigits 10 index).all Char.isDigit = true :=
    List.all_eq_true.mpr fun _ member => isDigit_of_mem member
  rw [numbered, toList_numeral]
  have front : ("arg".toList ++ Nat.toDigits 10 index).take 3 = "arg".toList := rfl
  have back : ("arg".toList ++ Nat.toDigits 10 index).drop 3 = Nat.toDigits 10 index := rfl
  rw [front, back, digits, List.length_append]
  simpa using some

variable {program : Program}

/-- What a signature is made of: numbers for the positional parameters, a mark after them, and an
entry for keyword arguments. -/
def parts (count : Nat) (keywords : Bool) : List String :=
  (List.range count).map (fun index => s!"arg{index}") ++ (if count = 0 then [] else ["/"]) ++
    if keywords then ["**kwargs"] else []

theorem signature_eq (slot : Slot) :
    program.signature slot =
      "(" ++ ", ".intercalate (parts
        (Program.splitKeywords (program.slotParameters slot)).1.length
        (Program.splitKeywords (program.slotParameters slot)).2) ++ ")" := by
  rw [Program.signature]
  rcases Program.splitKeywords (program.slotParameters slot) with ⟨types, keywords⟩
  simp [parts]

theorem unbroken_parts (count : Nat) (keywords : Bool) :
    ∀ part ∈ parts count keywords, Unbroken part := by
  intro part member
  simp only [parts, List.mem_append, List.mem_map] at member
  rcases member with (⟨index, _, rfl⟩ | mark) | last
  · exact unbroken_numeral index
  · split at mark
    · cases mark
    · rw [List.mem_singleton.mp mark]
      simp [Unbroken]
  · split at last
    · rw [List.mem_singleton.mp last]
      simp [Unbroken]
    · cases last

theorem entries_signature (slot : Slot) :
    entries (program.signature slot) =
      if parts (Program.splitKeywords (program.slotParameters slot)).1.length
        (Program.splitKeywords (program.slotParameters slot)).2 = [] then [[]]
      else (parts (Program.splitKeywords (program.slotParameters slot)).1.length
        (Program.splitKeywords (program.slotParameters slot)).2).map String.toList := by
  rw [signature_eq, entries_brackets (unbroken_parts _ _)]

/-- A signature announces as many positional arguments as the slot counts. -/
theorem positional_signature (slot : Slot) :
    positional (program.signature slot) =
      (Program.splitKeywords (program.slotParameters slot)).1.length := by
  rw [positional, entries_signature]
  generalize (Program.splitKeywords (program.slotParameters slot)).1.length = count
  generalize (Program.splitKeywords (program.slotParameters slot)).2 = keywords
  have numerals : ((List.range count).map fun index => s!"arg{index}").countP
      (numbered ∘ String.toList) = count := by
    rw [List.countP_eq_length.mpr]
    · simp
    · simp only [List.mem_map, forall_exists_index, and_imp]
      rintro _ index _ rfl
      exact numbered_numeral index
  split
  · next none =>
    simp only [parts, List.append_eq_nil_iff, List.map_eq_nil_iff, List.range_eq_nil] at none
    rw [none.1.1]
    rfl
  · rw [List.countP_map, parts, List.countP_append, List.countP_append, numerals]
    have mark : (numbered ∘ String.toList) "/" = false := by simp [numbered]
    have last : (numbered ∘ String.toList) "**kwargs" = false := by simp [numbered]
    have marks : (if count = 0 then [] else ["/"]).countP (numbered ∘ String.toList) = 0 := by
      split
      · rfl
      · rw [List.countP_singleton, mark]
        rfl
    have lasts : (if keywords then ["**kwargs"] else []).countP (numbered ∘ String.toList) = 0 := by
      split
      · rw [List.countP_singleton, last]
        rfl
      · rfl
    rw [marks, lasts]
    rfl

/-- It announces keyword arguments if the slot collects them. -/
theorem collects_signature (slot : Slot) :
    collects (program.signature slot) = (Program.splitKeywords (program.slotParameters slot)).2 := by
  rw [collects, entries_signature]
  generalize (Program.splitKeywords (program.slotParameters slot)).1.length = count
  generalize (Program.splitKeywords (program.slotParameters slot)).2 = keywords
  have numerals : ∀ index : Nat, (s!"arg{index}").toList ≠ "**kwargs".toList := by
    intro index
    rw [toList_numeral]
    simp
  cases keywords with
  | true => simp [parts]
  | false =>
    refine Bool.eq_false_iff.mpr fun found => ?_
    rw [List.contains_iff_mem] at found
    split at found
    · simp at found
    · obtain ⟨part, member, same⟩ := List.mem_map.mp found
      simp only [parts, List.mem_append, List.mem_map] at member
      rcases member with (⟨index, _, rfl⟩ | mark) | last
      · exact numerals index same
      · split at mark
        · cases mark
        · rw [List.mem_singleton.mp mark] at same
          simp at same
      · cases last

end Signature

/-! ## The vector of arguments -/

namespace Program

variable (program : Program) (heap : Heap) (registry : RegistryId)

/-- Decode positional arguments, each into a value that knows the type of its parameter. -/
def typedArguments : List HostType → List Ref → Except Fault (List Typed)
  | type :: types, ref :: refs => do
    let value ←
      match Decode.fresh program heap registry type ref with
      | .ok value => Except.ok value
      | .error (.error cause) =>
        .error (.raised (.argumentRefused (heap.text ref) (program.typeName type) cause.message))
      | .error (.panic misuse) => .error (.panicked misuse)
      | .error .tooDeep => .error .exhausted
    return ⟨type, value⟩ :: (← typedArguments types refs)
  | _, _ => .ok []

/-- The checks that come before any argument is converted. -/
def checkArguments (slot : Slot) (positional : List Ref) (keywords : Option Ref) :
    Except Fault Unit := do
  let (types, collects) := splitKeywords (program.slotParameters slot)
  if positional.length ≠ types.length then
    throw (.raised (.wrongCount slot.exposed types.length positional.length))
  if (keywords.filter fun dict => 0 < heap.dictSize dict).isSome && !collects then
    throw (.raised (.noKeywords slot.exposed))

/-- Check and decode the arguments of a slot into a vector of values that know their types. -/
def vector (slot : Slot) (positional : List Ref) (keywords : Option Ref) :
    Except Fault (List Typed) := do
  program.checkArguments heap slot positional keywords
  let parameters := splitKeywords (program.slotParameters slot)
  let values ← program.typedArguments heap registry parameters.1 positional
  return if parameters.2 then
    values ++ [⟨.keywords, .keywords (keywords.filter fun dict => 0 < heap.dictSize dict)⟩]
  else values

/-- Why host code does not get an argument. -/
inductive Slip where
  /-- There is nothing at the position. -/
  | outOfRange (index : Nat)
  /-- There is a value of another type. -/
  | misuse (misuse : Misuse)

/-- Move the value at a position out, as a value of a type. -/
def takeAt (index : Nat) (type : HostType) (vector : List Typed) :
    Except Slip (HostValue × List Typed) :=
  match vector[index]? with
  | none => .error (.outOfRange index)
  | some typed =>
    match program.take typed type with
    | .ok (value, left) => .ok (value, vector.set index left)
    | .error misuse => .error (.misuse misuse)

/-- Move the arguments of host code out, by the types it has declared, from a position on. -/
def takeFrom : List HostType → Nat → List Typed → Except Slip (List HostValue × List Typed)
  | [], _, vector => .ok ([], vector)
  | type :: types, index, vector => do
    let (value, vector) ← program.takeAt index type vector
    let (values, vector) ← takeFrom types (index + 1) vector
    return (value :: values, vector)

/-- Own the values of a vector, which makes the keyword dicts that they lack. -/
def adoptVector (vector : List Typed) : Op (List Typed) := do
  let values ← Op.adoptAll (vector.map Typed.value)
  return List.zipWith (fun typed value => { typed with value }) vector values

variable {program heap registry} {slot : Slot} {positional : List Ref} {keywords : Option Ref}

/-- Positional parameters come first among all parameters. -/
theorem splitKeywords_getElem? {parameters : List HostType} {index : Nat}
    (early : index < (splitKeywords parameters).1.length) :
    (splitKeywords parameters).1[index]? = parameters[index]? := by
  unfold splitKeywords at early ⊢
  split
  · next ends =>
    rw [if_pos ends, List.length_dropLast] at early
    rw [List.getElem?_dropLast, if_pos early]
  · rfl

/-! ### The vector holds the arguments -/

theorem typedArguments_value (types : List HostType) (refs : List Ref) :
    (program.typedArguments heap registry types refs).map (List.map Typed.value) =
      program.decodeArguments heap registry types refs := by
  induction types generalizing refs with
  | nil => rfl
  | cons type types ih =>
    cases refs with
    | nil => rfl
    | cons ref refs =>
      rw [typedArguments, decodeArguments, ← ih]
      cases Decode.fresh program heap registry type ref with
      | error refusal => cases refusal <;> rfl
      | ok value => cases program.typedArguments heap registry types refs <;> rfl

/-- There is one value for each parameter, in order, as the object in its place is decoded. -/
theorem typedArguments_ok {types : List HostType} {refs : List Ref} {typed : List Typed}
    (count : refs.length = types.length)
    (made : program.typedArguments heap registry types refs = .ok typed) :
    typed.map Typed.type = types ∧ ∀ (index : Nat) type ref, types[index]? = some type →
      refs[index]? = some ref → ∃ value,
        Decode.fresh program heap registry type ref = .ok value ∧
          typed[index]? = some ⟨type, value⟩ := by
  induction types generalizing refs typed with
  | nil =>
    cases made
    exact ⟨rfl, fun _ _ _ found => by simp at found⟩
  | cons type types ih =>
    cases refs with
    | nil => cases count
    | cons ref refs =>
      rw [typedArguments] at made
      split at made
      · next value read =>
        obtain ⟨_, first, later⟩ := Refusal.exists_of_bind_eq_ok made
        cases first
        obtain ⟨rest, last, same⟩ := Refusal.exists_of_bind_eq_ok later
        cases same
        obtain ⟨described, placed⟩ := ih (by simpa using count) last
        refine ⟨by rw [List.map_cons, described], fun index => ?_⟩
        cases index with
        | zero =>
          intro _ _ declared given
          cases declared
          cases given
          exact ⟨value, read, rfl⟩
        | succ index => exact placed index
      · cases made
      · cases made
      · cases made

/-- The arguments of a slot are checked before the first of them is decoded. -/
theorem arguments_eq_check :
    program.arguments heap registry slot positional keywords = (do
      program.checkArguments heap slot positional keywords
      let values ← program.decodeArguments heap registry
        (splitKeywords (program.slotParameters slot)).1 positional
      return if (splitKeywords (program.slotParameters slot)).2 then
        values ++ [.keywords (keywords.filter fun dict => 0 < heap.dictSize dict)]
      else values) := by
  rw [arguments, checkArguments]
  rcases splitKeywords (program.slotParameters slot) with ⟨types, collects⟩
  dsimp only
  split
  · rfl
  · split <;> rfl

/-- The values of the vector are the arguments of the slot. -/
theorem vector_value :
    (program.vector heap registry slot positional keywords).map (List.map Typed.value) =
      program.arguments heap registry slot positional keywords := by
  rw [vector, arguments_eq_check, ← typedArguments_value]
  dsimp only
  cases program.checkArguments heap slot positional keywords with
  | error fault => rfl
  | ok _ =>
    cases program.typedArguments heap registry
        (splitKeywords (program.slotParameters slot)).1 positional with
    | error fault => rfl
    | ok typed =>
      cases (splitKeywords (program.slotParameters slot)).2 <;>
        simp [bind, Except.bind, pure, Except.pure, Except.map]

/-- A call passes the checks if it has as many arguments as there are positional parameters, and
keyword arguments only if these are collected. -/
theorem checkArguments_eq_ok :
    program.checkArguments heap slot positional keywords = .ok () ↔
      positional.length = (splitKeywords (program.slotParameters slot)).1.length ∧
      ((∀ dict ∈ keywords, heap.dictSize dict = 0) ∨
        (splitKeywords (program.slotParameters slot)).2 = true) := by
  rw [checkArguments]
  rcases splitKeywords (program.slotParameters slot) with ⟨types, collects⟩
  dsimp only
  split
  · next wrong =>
    constructor
    · intro passed
      cases passed
    · rintro ⟨count, -⟩
      exact absurd count wrong
  · next count =>
    split
    · next unwanted =>
      obtain ⟨given, plain⟩ := Bool.and_eq_true_iff.mp unwanted
      obtain ⟨dict, same, entries⟩ := isSome_filter_keywords.mp given
      constructor
      · intro passed
        cases passed
      · rintro ⟨-, empty | collects⟩
        · exact absurd (empty dict same) (Nat.ne_of_gt entries)
        · rw [collects] at plain
          cases plain
    · next wanted =>
      refine ⟨fun _ => ⟨not_not.mp count, ?_⟩, fun _ => rfl⟩
      rw [Bool.and_eq_true, not_and_or, isSome_filter_keywords] at wanted
      rcases wanted with none | collects
      · exact .inl fun dict given => Nat.eq_zero_of_not_pos fun entries => none ⟨dict, given, entries⟩
      · exact .inr (by simpa using collects)

/-- How the vector is found: the checks are passed, each argument is decoded, and a last parameter for
keyword arguments gets a value of its own. -/
theorem vector_eq_ok {typed : List Typed}
    (made : program.vector heap registry slot positional keywords = .ok typed) :
    program.checkArguments heap slot positional keywords = .ok () ∧
      ∃ decoded, program.typedArguments heap registry
          (splitKeywords (program.slotParameters slot)).1 positional = .ok decoded ∧
        typed = if (splitKeywords (program.slotParameters slot)).2 then
          decoded ++ [⟨.keywords, .keywords (keywords.filter fun dict => 0 < heap.dictSize dict)⟩]
        else decoded := by
  rw [vector] at made
  obtain ⟨_, passed, later⟩ := Refusal.exists_of_bind_eq_ok made
  obtain ⟨decoded, read, last⟩ := Refusal.exists_of_bind_eq_ok later
  cases last
  exact ⟨passed, decoded, read, rfl⟩

/-- The vector has one value for each parameter, in order, which is described by its type. -/
theorem vector_type {typed : List Typed}
    (made : program.vector heap registry slot positional keywords = .ok typed) :
    typed.map Typed.type = program.slotParameters slot := by
  obtain ⟨passed, decoded, read, same⟩ := vector_eq_ok made
  have described := (typedArguments_ok (checkArguments_eq_ok.mp passed).1 read).1
  rw [same]
  unfold splitKeywords at described ⊢
  split
  · next ends =>
    rw [if_pos ends] at described
    rw [if_pos rfl, List.map_append, described]
    exact List.dropLast_append_getLast? HostType.keywords ends
  · next plain =>
    rw [if_neg plain] at described
    exact described

/-- Positional arguments are in their places. -/
theorem vector_getElem? {typed : List Typed}
    (made : program.vector heap registry slot positional keywords = .ok typed) {index : Nat}
    {ref : Ref}
    (given : positional[index]? = some ref) :
    ∃ type value, (program.slotParameters slot)[index]? = some type ∧
      Decode.fresh program heap registry type ref = .ok value ∧
      typed[index]? = some ⟨type, value⟩ := by
  obtain ⟨passed, decoded, read, same⟩ := vector_eq_ok made
  have count := (checkArguments_eq_ok.mp passed).1
  obtain ⟨described, placed⟩ := typedArguments_ok count read
  have early : index < (splitKeywords (program.slotParameters slot)).1.length := by
    rw [← count]
    exact (List.getElem?_eq_some_iff.mp given).1
  have declared := List.getElem?_eq_getElem early
  obtain ⟨value, converted, found⟩ := placed index _ ref declared given
  refine ⟨_, value, by rw [← splitKeywords_getElem? early, declared], converted, ?_⟩
  rw [same]
  split
  · rw [List.getElem?_append_left (List.getElem?_eq_some_iff.mp found).1, found]
  · exact found

/-! ### The thunk gets the arguments -/

/-- What describes its type is moved out, and a zero value stays behind. -/
theorem takeFrom_append (front back : List Typed) :
    program.takeFrom (back.map Typed.type) front.length (front ++ back) =
      .ok (back.map Typed.value,
        front ++ back.map fun typed => { typed with value := program.zero typed.type }) := by
  induction back generalizing front with
  | nil => simp [takeFrom]
  | cons typed back ih =>
    have here : (front ++ typed :: back)[front.length]? = some typed := by simp
    have left : (front ++ typed :: back).set front.length
        { typed with value := program.zero typed.type } =
          (front ++ [{ typed with value := program.zero typed.type }]) ++ back := by simp
    have taken : program.takeAt front.length typed.type (front ++ typed :: back) =
        .ok (typed.value, (front ++ [{ typed with value := program.zero typed.type }]) ++ back) := by
      rw [takeAt, here, ← left]
      dsimp only
      rw [take, if_pos rfl]
    have rest := ih (front ++ [{ typed with value := program.zero typed.type }])
    rw [List.length_append, List.length_singleton] at rest
    rw [List.map_cons, takeFrom, taken]
    dsimp only [bind, Except.bind]
    rw [rest]
    simp [pure, Except.pure]

/-- Every argument of a vector is in range, and of the type as which it is taken. -/
theorem takeFrom_vector (vector : List Typed) :
    program.takeFrom (vector.map Typed.type) 0 vector =
      .ok (vector.map Typed.value,
        vector.map fun typed => { typed with value := program.zero typed.type }) :=
  takeFrom_append [] vector

/-! ### Arguments that can be converted -/

variable (program heap registry positional) in
/-- Each of some objects can be decoded as a value of the type in its place. -/
def Convertible (types : List HostType) : Prop :=
  ∀ (index : Nat) type ref, types[index]? = some type → positional[index]? = some ref →
    ∃ value, Decode.fresh program heap registry type ref = .ok value

theorem exists_typedArguments {types : List HostType} {refs : List Ref}
    (convertible : program.Convertible heap registry refs types) :
    ∃ typed, program.typedArguments heap registry types refs = .ok typed := by
  induction types generalizing refs with
  | nil => exact ⟨[], rfl⟩
  | cons type types ih =>
    cases refs with
    | nil => exact ⟨[], rfl⟩
    | cons ref refs =>
      obtain ⟨value, read⟩ := convertible 0 type ref rfl rfl
      have later : program.Convertible heap registry refs types :=
        fun index => convertible (index + 1)
      obtain ⟨typed, rest⟩ := ih later
      rw [typedArguments, read]
      dsimp only
      rw [rest]
      exact ⟨⟨type, value⟩ :: typed, rfl⟩

end Program

/-! ## Owned arguments -/

namespace HostValue

theorem length_completedAll (values : List HostValue) (world : World) :
    (completedAll values world).1.length = values.length := by
  induction values generalizing world with
  | nil => rfl
  | cons value values ih =>
    rw [completedAll, List.length_cons, List.length_cons, ih]

theorem completedAll_getElem? {values : List HostValue} {index : Nat} {value : HostValue}
    (found : values[index]? = some value) (world : World) :
    ∃ between, (completedAll values world).1[index]? = some (value.completed between).1 := by
  induction values generalizing index world with
  | nil => simp at found
  | cons first values ih =>
    rw [completedAll]
    cases index with
    | zero =>
      cases found
      exact ⟨world, rfl⟩
    | succ index => exact ih found _

theorem completedAll_append (front back : List HostValue) (world : World) :
    completedAll (front ++ back) world =
      ((completedAll front world).1 ++ (completedAll back (completedAll front world).2).1,
        (completedAll back (completedAll front world).2).2) := by
  induction front generalizing world with
  | nil => rfl
  | cons value front ih =>
    rw [List.cons_append, completedAll, completedAll]
    dsimp only
    rw [ih]
    rfl

end HostValue

namespace Program

variable {program : Program} {registry : RegistryId} {slot : Slot} {positional : List Ref}
  {keywords : Option Ref} {world : World} {held : Multiset Ref}

/-- The dict that a last parameter for keyword arguments gets: that of the caller, or a new one if
that is empty or missing. -/
inductive Handed (before after : World) : Option Ref → Ref → Prop
  | given {dict : Ref} (entries : 0 < before.heap.dictSize dict) :
    Handed before after (some dict) dict
  | made {keywords : Option Ref} {new : Ref}
      (empty : ∀ dict ∈ keywords, before.heap.dictSize dict = 0)
      (unused : before.heap.size ≤ new.place) (reading : after.heap.body new = .dict .empty) :
    Handed before after keywords new

variable (program registry slot positional keywords) in
/-- A vector holds the arguments of a call as the parameters of its slot ask for them. -/
structure Marshalled (before after : World) (vector : List Typed) : Prop where
  /-- There is one value for each parameter, described by its type. -/
  described : vector.map Typed.type = program.slotParameters slot
  fits : ∀ typed ∈ vector, typed.value.fits program typed.type = true
  /-- Positional arguments are what the objects are decoded as, with the dicts that this lacks. -/
  decoded : ∀ (index : Nat) ref, positional[index]? = some ref → ∃ type value between,
    (program.slotParameters slot)[index]? = some type ∧
      Decode.fresh program before.heap registry type ref = .ok value ∧
      vector[index]? = some ⟨type, (value.completed between).1⟩
  collected : (program.slotParameters slot).getLast? = some .keywords → ∃ dict,
    vector.getLast? = some ⟨.keywords, .keywords (some dict)⟩ ∧ Handed before after keywords dict
  /-- Host code gets each of them. -/
  taken : ∃ left, program.takeFrom (program.slotParameters slot) 0 vector =
    .ok (vector.map Typed.value, left)

variable (program registry slot positional keywords) in
/-- Convert the arguments of a slot into owned values that know their types. -/
def convert : Op (List Typed) := do
  let heap ← Op.heap
  let vector ← Op.ofExcept (program.vector heap registry slot positional keywords)
  adoptVector vector

theorem map_type_zipWith {vector : List Typed} {values : List HostValue}
    (same : values.length = vector.length) :
    (List.zipWith (fun typed value => { typed with value }) vector values).map Typed.type =
      vector.map Typed.type := by
  induction vector generalizing values with
  | nil => rfl
  | cons typed vector ih =>
    cases values with
    | nil => cases same
    | cons value values => simp [ih (by simpa using same)]

theorem map_value_zipWith {vector : List Typed} {values : List HostValue}
    (same : values.length = vector.length) :
    (List.zipWith (fun typed value => { typed with value }) vector values).map Typed.value =
      values := by
  induction vector generalizing values with
  | nil =>
    cases values with
    | nil => rfl
    | cons value values => cases same
  | cons typed vector ih =>
    cases values with
    | nil => cases same
    | cons value values => simp [ih (by simpa using same)]

theorem fits_of_fitsAll {vector : List Typed}
    (fit : HostValue.fitsAll program (vector.map Typed.type) (vector.map Typed.value) = true) :
    ∀ typed ∈ vector, typed.value.fits program typed.type = true := by
  induction vector with
  | nil => simp
  | cons typed vector ih =>
    simp only [List.map_cons, HostValue.fitsAll, Bool.and_eq_true] at fit
    exact List.forall_mem_cons.mpr ⟨fit.1, ih fit.2⟩

/-- A keyword dict that is handed on or made behind other values. -/
theorem exists_handed (program : Program) (keywords : Option Ref) (values : List HostValue)
    {start : World}
    (larger : world.heap.size ≤ start.heap.size) :
    ∃ dict, (HostValue.completedAll (values ++ [.keywords
          (keywords.filter fun dict => 0 < world.heap.dictSize dict)]) start).1 =
        (HostValue.completedAll values start).1 ++ [.keywords (some dict)] ∧
      Handed world (HostValue.completedAll (values ++ [.keywords
          (keywords.filter fun dict => 0 < world.heap.dictSize dict)]) start).2 keywords dict := by
  rw [HostValue.completedAll_append]
  have makes : World.Makes program Permission.nothing start _ _ _ :=
    HostValue.makes_completedAll values start
  have grown : start.heap.size ≤ (HostValue.completedAll values start).2.heap.size :=
    (makes.path 0).grows.places
  cases given : keywords.filter fun dict => 0 < world.heap.dictSize dict with
  | some dict =>
    obtain ⟨rfl, entries⟩ := Option.filter_eq_some_iff.mp given
    exact ⟨dict, rfl, .given (by simpa using entries)⟩
  | none =>
    refine ⟨(HostValue.completedAll values start).2.heap.next, rfl, .made ?_ (larger.trans grown) ?_⟩
    · intro dict same
      have empty := Option.filter_eq_none_iff.mp given dict same
      exact Nat.eq_zero_of_not_pos (by simpa using empty)
    · exact Heap.body_eq (Heap.cell?_push_next _ _)

/-- The arguments of a call that are accepted are owned in a vector that holds them as the
parameters ask for them. -/
theorem exists_marshalled (founded : program.Founded) (sound : world.Sound program held)
    (used : ∀ ref ∈ positional, ref.place < world.heap.size)
    (keywordsUsed : ∀ ref ∈ keywords, ref.place < world.heap.size) {typed : List Typed}
    (made : program.vector world.heap registry slot positional keywords = .ok typed) :
    ∃ vector after, (program.convert registry slot positional keywords).run world =
        (.ok vector, after) ∧
      (Op.adoptAll (typed.map Typed.value)).run world = (.ok (vector.map Typed.value), after) ∧
      Marshalled program registry slot positional keywords world after vector := by
  have accepted : program.arguments world.heap registry slot positional keywords =
      .ok (typed.map Typed.value) := by
    rw [← vector_value, made]
    rfl
  have valid := valid_arguments founded sound used keywordsUsed accepted
  let start := world.retainAll (HostValue.referencesAll (typed.map Typed.value))
  let owned := HostValue.completedAll (typed.map Typed.value) start
  have length : owned.1.length = typed.length := by
    rw [HostValue.length_completedAll, List.length_map]
  have adopted : (Op.adoptAll (typed.map Typed.value)).run world = (.ok owned.1, owned.2) := rfl
  have described := (map_type_zipWith length).trans (vector_type made)
  have contents := map_value_zipWith length
  refine ⟨List.zipWith (fun typed value => { typed with value }) typed owned.1, owned.2, ?_, ?_, ?_⟩
  · rw [convert, Operation.run_bind_of_ok (Op.run_heap world), made]
    rfl
  · rw [contents]
    exact adopted
  refine ⟨described, ?_, ?_, ?_, ?_⟩
  · refine fits_of_fitsAll ?_
    rw [described, contents, HostValue.fitsAll_completedAll]
    exact valid.1
  · intro index ref given
    obtain ⟨type, value, declared, converted, found⟩ := vector_getElem? made given
    have read : (typed.map Typed.value)[index]? = some value := by simp [found]
    obtain ⟨between, completed⟩ := HostValue.completedAll_getElem? read start
    refine ⟨type, value, between, declared, converted, ?_⟩
    rw [List.getElem?_zipWith, found, completed]
  · intro ends
    obtain ⟨passed, decoded, read, same⟩ := vector_eq_ok made
    have collects : (splitKeywords (program.slotParameters slot)).2 = true := by
      unfold splitKeywords
      rw [if_pos ends]
    rw [if_pos collects] at same
    have retained : World.Makes program Permission.nothing world [] start _ := .retainAll valid.2
    have larger : world.heap.size ≤ start.heap.size := (retained.path 0).grows.places
    obtain ⟨dict, last, handed⟩ :=
      exists_handed program keywords (decoded.map Typed.value) larger
    have whole : typed.map Typed.value = decoded.map Typed.value ++ [.keywords
        (keywords.filter fun dict => 0 < world.heap.dictSize dict)] := by
      rw [same, List.map_append]
      rfl
    rw [← whole] at last handed
    refine ⟨dict, ?_, handed⟩
    have split : owned.1 = (HostValue.completedAll (decoded.map Typed.value) start).1 ++
      [.keywords (some dict)] := last
    rw [split, same, List.zipWith_append]
    · simp
    · rw [HostValue.length_completedAll, List.length_map]
  · have taken : program.takeFrom _ 0 _ = _ := takeFrom_vector
      (List.zipWith (fun typed value => { typed with value }) typed owned.1)
    rw [described] at taken
    exact ⟨_, taken⟩

/-- Arguments that pass the checks and can be converted one by one make a vector. -/
theorem exists_vector (passed : program.checkArguments world.heap slot positional keywords = .ok ())
    (convertible : program.Convertible world.heap registry positional
      (program.slotParameters slot)) :
    ∃ typed, program.vector world.heap registry slot positional keywords = .ok typed := by
  have count := (checkArguments_eq_ok.mp passed).1
  have each : program.Convertible world.heap registry positional
      (splitKeywords (program.slotParameters slot)).1 := by
    intro index type ref declared given
    have early := (List.getElem?_eq_some_iff.mp declared).1
    exact convertible index type ref (by rw [← splitKeywords_getElem? early, declared]) given
  obtain ⟨typed, read⟩ := exists_typedArguments each
  rw [vector, passed]
  dsimp only [bind, Except.bind]
  rw [read]
  exact ⟨_, rfl⟩

end Program

/-! ## What a signature promises -/

variable {program : Program} {world : World} {held : Multiset Ref}

/-- A call passes the checks that come first just if it has as many arguments as its signature
numbers, and keyword arguments only if the signature has an entry for them; if it does not, then it
is refused by the checks.  If it does and its arguments can be converted one by one, then there is a
vector that holds them as the parameters ask for them, keyword arguments behind the others. -/
theorem World.Reached.arguments_match_signature (honest : program.Honest)
    (reached : world.Reached program held) {registry : RegistryId} {entry : Entry} {slot : Slot}
    {shown : String} (advertised : (program.definition entry slot).signature = some shown)
    {positional : List Ref} {keywords : Option Ref}
    (used : ∀ ref ∈ positional, ref.place < world.heap.size)
    (keywordsUsed : ∀ ref ∈ keywords, ref.place < world.heap.size) :
    (program.checkArguments world.heap slot positional keywords = .ok () ↔
      positional.length = Signature.positional shown ∧
        ((∀ dict ∈ keywords, world.heap.dictSize dict = 0) ∨ Signature.collects shown = true)) ∧
    (∀ fault, program.checkArguments world.heap slot positional keywords = .error fault →
      program.arguments world.heap registry slot positional keywords = .error fault) ∧
    (program.checkArguments world.heap slot positional keywords = .ok () →
      program.Convertible world.heap registry positional (program.slotParameters slot) →
      ∃ values, program.arguments world.heap registry slot positional keywords = .ok values) ∧
    ∀ values, program.arguments world.heap registry slot positional keywords = .ok values →
      ∃ vector after,
        (program.convert registry slot positional keywords).run world = (.ok vector, after) ∧
        (Op.adoptAll values).run world = (.ok (vector.map Program.Typed.value), after) ∧
        program.Marshalled registry slot positional keywords world after vector := by
  obtain rfl := Option.some.inj advertised
  refine ⟨?_, ?_, ?_, ?_⟩
  · rw [Program.checkArguments_eq_ok, Signature.positional_signature, Signature.collects_signature]
  · intro fault refused
    rw [Program.arguments_eq_check, refused]
    rfl
  · intro passed convertible
    obtain ⟨typed, made⟩ := Program.exists_vector passed convertible
    rw [← Program.vector_value, made]
    exact ⟨_, rfl⟩
  · intro values accepted
    rw [← Program.vector_value] at accepted
    cases made : program.vector world.heap registry slot positional keywords with
    | error fault =>
      rw [made] at accepted
      cases accepted
    | ok typed =>
      rw [made] at accepted
      cases accepted
      exact Program.exists_marshalled honest.founded (reached.sound honest) used keywordsUsed made

namespace Figures

/-- A number is shown after the types have been registered. -/
def numbering : List Request := .toObject bridge number (.int 5) :: opening

theorem playable_numbering : Request.Playable Figures.program numbering := by
  have unborrowed : ∀ {used : Ref → Prop}, ∀ ref ∈ ([] : List Ref), used ref :=
    fun _ member => by cases member
  refine ⟨playable_opening, rfl, unborrowed, ?_⟩
  show HostValue.fits Figures.program number (.int 5) = true
  decide

/-- The slot of the function of two numbers. -/
def firstSlot : Slot := ⟨0, "first", "first", "", .function 0 .unit⟩

end Figures

set_option maxRecDepth 10000 in
/-- The function is called with the number twice. -/
theorem World.Reached.arguments_match_numbers : ∃ (world : World) (held : Multiset Ref)
    (vector : List Program.Typed) (after : World),
    world.Reached Figures.program held ∧
      (Figures.program.definition (.slot 0) Figures.firstSlot).signature =
        some "(arg0, arg1, /)" ∧
      Figures.program.checkArguments world.heap Figures.firstSlot [⟨7⟩, ⟨7⟩] none = .ok () ∧
      (Figures.program.convert ⟨0⟩ Figures.firstSlot [⟨7⟩, ⟨7⟩] none).run world =
        (.ok vector, after) ∧
      Figures.program.Marshalled ⟨0⟩ Figures.firstSlot [⟨7⟩, ⟨7⟩] none world after vector := by
  generalize played : Request.played Figures.program Figures.numbering = world
  have facts : (world.heap.size, Figures.program.arguments world.heap ⟨0⟩ Figures.firstSlot
      [⟨7⟩, ⟨7⟩] none) = (8, .ok [.int 5, .int 5]) := by
    subst played
    cbv
  obtain ⟨size, accepted⟩ := Prod.mk.inj facts
  have reached : world.Reached Figures.program (Request.kept Figures.program Figures.numbering) := by
    rw [← played]
    exact ⟨_, _, Figures.playable_numbering.session, .refl _ _⟩
  have advertised : (Figures.program.definition (.slot 0) Figures.firstSlot).signature =
      some "(arg0, arg1, /)" := by cbv
  have used : ∀ ref ∈ ([⟨7⟩, ⟨7⟩] : List Ref), ref.place < world.heap.size := by
    rw [size]
    decide
  have none : ∀ ref ∈ (none : Option Ref), ref.place < world.heap.size := by simp
  obtain ⟨checks, -, -, vectors⟩ :=
    World.Reached.arguments_match_signature Figures.honest reached advertised used none
  obtain ⟨vector, after, ran, _, marshalled⟩ := vectors _ accepted
  refine ⟨world, _, vector, after, reached, advertised, checks.mpr ⟨?_, .inl (by simp)⟩, ran,
    marshalled⟩
  cbv

end HostBridge
