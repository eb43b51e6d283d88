import HostBridge.Proofs.Codec.Reading

/-!
# Reading an object in two places

Decoding looks at the objects that it is led to and at the declarations of the
program.  So it comes out the same when there are further objects, and when the
host code of the program is another.  With further objects the messages may
differ, since the text of an object that contains itself is cut off later, and a
dict that was too deep may be read.
-/

namespace HostBridge

/-! ## Outcomes that differ in messages -/

namespace Refusal

/-- Outcomes that are the same but for messages.  Giving up for depth may become anything. -/
inductive Like {α : Type} : Except Refusal α → Except Refusal α → Prop
  | ok (value : α) : Like (.ok value) (.ok value)
  | error (cause cause' : ConversionError) : Like (.error (.error cause)) (.error (.error cause'))
  | panic (misuse misuse' : Misuse) : Like (.error (.panic misuse)) (.error (.panic misuse'))
  | tooDeep (result : Except Refusal α) : Like (.error .tooDeep) result

namespace Like

variable {α β ι : Type} {left right : Except Refusal α}

theorem bind {f g : α → Except Refusal β} (like : Like left right)
    (rest : ∀ value, Like (f value) (g value)) : Like (left >>= f) (right >>= g) := by
  cases like with
  | ok value => exact rest value
  | error cause cause' => exact .error cause cause'
  | panic misuse misuse' => exact .panic misuse misuse'
  | tooDeep result => exact .tooDeep _

theorem within (like : Like left right) (place place' : String) :
    Like (Refusal.within place left) (Refusal.within place' right) := by
  cases like with
  | ok value => exact .ok value
  | error cause cause' => exact .error _ _
  | panic misuse misuse' => exact .panic misuse misuse'
  | tooDeep result => exact .tooDeep _

theorem mapM {items : List ι} {f g : ι → Except Refusal α}
    (each : ∀ item ∈ items, Like (f item) (g item)) : Like (items.mapM f) (items.mapM g) := by
  induction items with
  | nil => exact .ok []
  | cons item rest ih =>
    rw [List.mapM_cons, List.mapM_cons]
    refine (each item (by simp)).bind fun value => ?_
    exact (ih fun other member => each other (by simp [member])).bind fun values => .ok _

theorem foldlM {items : List ι} {f g : β → ι → Except Refusal β}
    (each : ∀ item ∈ items, ∀ state, Like (f state item) (g state item)) (state : β) :
    Like (items.foldlM f state) (items.foldlM g state) := by
  induction items generalizing state with
  | nil => exact .ok state
  | cons item rest ih =>
    rw [List.foldlM_cons, List.foldlM_cons]
    refine (each item (by simp) state).bind fun next => ?_
    exact ih (fun other member => each other (by simp [member])) next

end Like

end Refusal

/-! ## Further objects -/

/-- A heap with further objects: what has a place is read there as before. -/
structure Heap.Enlarges (first second : Heap) : Prop where
  size : first.size ≤ second.size
  bodies : ∀ ref : Ref, ref.place < first.size → second.body ref = first.body ref
  wrapped : ∀ ref : Ref, ref.place < first.size → second.wrapped? ref = first.wrapped? ref
  closed : ∀ ref : Ref, ∀ inner ∈ (first.body ref).references, inner.place < first.size

theorem Heap.Enlarges.dict? {first second : Heap} (enlarges : first.Enlarges second) {ref : Ref}
    (used : ref.place < first.size) : second.dict? ref = first.dict? ref := by
  rw [Heap.dict?, Heap.dict?, enlarges.bodies ref used]

theorem Heap.Enlarges.items? {first second : Heap} (enlarges : first.Enlarges second) {ref : Ref}
    (used : ref.place < first.size) : second.items? ref = first.items? ref := by
  simp only [Heap.items?, enlarges.bodies ref used]

theorem Heap.Enlarges.isNone {first second : Heap} (enlarges : first.Enlarges second) {ref : Ref}
    (used : ref.place < first.size) : second.isNone ref = first.isNone ref := by
  simp only [Heap.isNone, enlarges.bodies ref used]

/-- The contents of the objects of a sound world say all that decoding reads. -/
theorem World.Sound.enlarges {program : Program} {world : World} {held : Multiset Ref}
    (sound : world.Sound program held) {second : Heap} (size : world.heap.size ≤ second.size)
    (bodies : ∀ ref : Ref, ref.place < world.heap.size → second.body ref = world.heap.body ref) :
    world.heap.Enlarges second := by
  have types : ∀ type : Ref, type.place < world.heap.size →
      second.bridgedType? type = world.heap.bridgedType? type :=
    fun type used => Heap.bridgedType?_congr (bodies type used)
  have wrappers : ∀ ref : Ref, ref.place < world.heap.size →
      second.wrapper? ref = world.heap.wrapper? ref := by
    intro ref used
    unfold Heap.wrapper?
    rw [bodies ref used]
    split
    · rename_i type registry content contents
      rw [types type (sound.used_of_body ref (by rw [contents]; simp [Body.references]))]
    · rfl
  have values : ∀ ref : Ref, ref.place < world.heap.size →
      second.ownedValue? ref = world.heap.ownedValue? ref := by
    intro ref used
    unfold Heap.ownedValue? Heap.instanceState?
    rw [bodies ref used]
  refine ⟨size, bodies, fun ref used => ?_, fun ref inner => sound.used_of_body ref⟩
  unfold Heap.wrapped?
  rw [wrappers ref used]
  cases wrapper : world.heap.wrapper? ref with
  | none => rfl
  | some parts =>
    obtain ⟨content, bridged⟩ := parts
    obtain ⟨value, rootType, owner, _⟩ := sound.wired.location wrapper
    have root : (Heap.location ref content).1.place < world.heap.size := by
      obtain ⟨cell, _, _, present, _⟩ := Heap.wrapper?_eq_some.mp owner
      exact Heap.place_lt_size present
    dsimp only
    rw [values _ root]

namespace Decode

open Refusal

variable {first second : Heap} {structs structs' : Structs}

/-- Structs are read alike. -/
def StructsLike (first : Heap) (structs structs' : Structs) : Prop :=
  ∀ id (ref : Ref) old, ref.place < first.size → Like (structs id ref old) (structs' id ref old)

theorem used_of_items (enlarges : first.Enlarges second) {ref : Ref} {items : List Ref}
    (found : first.items? ref = some items) : ∀ item ∈ items, item.place < first.size := by
  intro item member
  refine enlarges.closed ref item ?_
  rcases Heap.items?_eq_some found with contents | contents <;> rwa [contents]

theorem used_of_dict (enlarges : first.Enlarges second) {ref : Ref} {table : Dict}
    (found : first.dict? ref = some table) :
    ∀ entry ∈ table.entries, entry.key.place < first.size ∧ entry.value.place < first.size := by
  intro entry member
  have contents := Heap.dict?_eq_some found
  constructor
  all_goals
    refine enlarges.closed ref _ ?_
    rw [contents]
    exact Dict.mem_references.mpr ⟨entry, member, by simp⟩

mutual

theorem valueWith_like (program : Program) (enlarges : first.Enlarges second)
    (same : StructsLike first structs structs') :
    ∀ (type : HostType) (ref : Ref) (old : HostValue), ref.place < first.size →
      Like (valueWith program first structs type ref old)
        (valueWith program second structs' type ref old)
  | .unit, ref, old, used => by
    simp only [valueWith, mismatch, enlarges.isNone used]
    split <;> constructor
  | .bool, ref, old, used => by
    simp only [valueWith, mismatch, Heap.asBool?, enlarges.bodies ref used]
    split <;> constructor
  | .int kind, ref, old, used => by
    simp only [valueWith, mismatch, Heap.asInt?, enlarges.bodies ref used]
    split
    · split <;> constructor
    · constructor
  | .float width, ref, old, used => by
    simp only [valueWith, mismatch, Heap.asFloat?, enlarges.bodies ref used]
    split <;> constructor
  | .complex width, ref, old, used => by
    simp only [valueWith, mismatch, Heap.asComplex?, enlarges.bodies ref used]
    split <;> constructor
  | .text, ref, old, used => by
    simp only [valueWith, mismatch, Heap.asText?, enlarges.bodies ref used]
    split <;> constructor
  | .bytes, ref, old, used => by
    simp only [valueWith, mismatch, Heap.asBytes?, enlarges.bodies ref used]
    split <;> constructor
  | .seq element, ref, old, used => by
    simp only [valueWith, mismatch, enlarges.items? used]
    split
    · constructor
    · rename_i items found
      refine Like.bind (.mapM fun entry member => ?_) fun values => .ok _
      have used := used_of_items enlarges found entry.1 (List.fst_mem_of_mem_zipIdx member)
      exact (valueWith_like program enlarges same element entry.1 _ used).within _ _
  | .map order key value, ref, old, used => by
    simp only [valueWith, mismatch, enlarges.dict? used]
    split
    · constructor
    · rename_i table found
      refine Like.bind (.foldlM (fun entry member state => ?_) []) fun entries => .ok _
      obtain ⟨keyUsed, valueUsed⟩ := used_of_dict enlarges found entry member
      refine ((valueWith_like program enlarges same key entry.key _ keyUsed).within _ _).bind
        fun name => ?_
      refine ((valueWith_like program enlarges same value entry.value _ valueUsed).within _ _).bind
        ?_
      exact fun content => .ok _
  | .struct id, ref, old, used => same id ref old used
  | .boxed element, ref, old, used => by
    simp only [valueWith]
    exact (valueWith_like program enlarges same element ref _ used).bind fun value => .ok _
  | .optional element, ref, old, used => by
    simp only [valueWith, enlarges.isNone used]
    split
    · constructor
    · exact (valueWith_like program enlarges same element ref _ used).bind fun value => .ok _
  | .tuple elements, ref, old, used => by
    simp only [valueWith, mismatch, enlarges.items? used]
    split
    · rename_i items found
      split
      · refine Like.bind ?_ fun values => .ok _
        exact elementsWith_like program enlarges same elements items 0 (used_of_items enlarges found)
      · constructor
    · constructor
  | .object, ref, old, used => .ok _
  | .keywords, ref, old, used => by
    have dict : second.isDict ref = first.isDict ref := by
      simp only [Heap.isDict, enlarges.bodies ref used]
    simp only [valueWith, mismatch, dict]
    split <;> constructor
  | .sealed id, ref, old, used => .panic _ _

theorem elementsWith_like (program : Program) (enlarges : first.Enlarges second)
    (same : StructsLike first structs structs') :
    ∀ (types : List HostType) (items : List Ref) (index : Nat),
      (∀ item ∈ items, item.place < first.size) →
        Like (elementsWith program first structs types items index)
          (elementsWith program second structs' types items index)
  | [], items, index, used => by
    simp only [elementsWith]
    constructor
  | type :: types, [], index, used => by
    simp only [elementsWith]
    constructor
  | type :: types, item :: items, index, used => by
    simp only [elementsWith]
    refine ((valueWith_like program enlarges same type item _ (used item (by simp))).within _ _).bind ?_
    intro value
    refine (elementsWith_like program enlarges same types items (index + 1) ?_).bind fun values => .ok _
    exact fun other member => used other (by simp [member])

end

/-- The fields that a dict has are read alike. -/
theorem fields_like (program : Program) (enlarges : first.Enlarges second)
    (same : StructsLike first structs structs')
    (owner : String) {table : Dict} (used : ∀ ref ∈ table.references, ref.place < first.size) :
    ∀ (decls : List FieldDecl) (olds : List HostValue),
      Like (fields program first structs owner table decls olds)
        (fields program second structs' owner table decls olds)
  | [], olds => by
    simp only [fields]
    exact .ok olds
  | field :: rest, [] => by
    simp only [fields]
    exact .ok []
  | field :: rest, old :: olds => by
    simp only [fields]
    have later : ∀ value, Like
        (fields program first structs owner table rest olds >>= fun values =>
          pure (value :: values))
        (fields program second structs' owner table rest olds >>= fun values =>
          pure (value :: values)) := fun value =>
      (fields_like program enlarges same owner used rest olds).bind fun values => .ok _
    split
    · rename_i ref _ found
      have like := valueWith_like program enlarges same field.type ref old
        (used ref (Dict.mem_references_of_get? found))
      generalize valueWith program first structs field.type ref old = left at like
      generalize valueWith program second structs' field.type ref old = right at like
      cases like with
      | ok value => exact later value
      | error cause cause' => exact .panic _ _
      | panic misuse misuse' => exact .panic _ _
      | tooDeep result => exact .tooDeep _
    · exact later old

/-- A wrapper is read alike, at any depth. -/
theorem struct_like_of_wrapped (program : Program) (enlarges : first.Enlarges second)
    {registry : RegistryId} {depth depth' : Nat} {id : StructId} {ref : Ref} {old : HostValue}
    {parts : HostValue × BridgedType} (wrapped : first.wrapped? ref = some parts)
    (used : ref.place < first.size) :
    Like (struct program first registry depth id ref old)
      (struct program second registry depth' id ref old) := by
  rw [struct_of_wrapped wrapped, struct_of_wrapped ((enlarges.wrapped ref used).trans wrapped)]
  split
  · exact .ok _
  · exact .error _ _

/-- A struct is read alike; with further objects more depth is granted. -/
theorem struct_like (program : Program) (enlarges : first.Enlarges second) (registry : RegistryId)
    {depth depth' : Nat} (deeper : depth ≤ depth') :
    StructsLike first (struct program first registry depth)
      (struct program second registry depth') := by
  induction depth generalizing depth' with
  | zero =>
    intro id ref old used
    cases wrapped : first.wrapped? ref with
    | some parts => exact struct_like_of_wrapped program enlarges wrapped used
    | none =>
      unfold struct
      rw [enlarges.wrapped ref used, wrapped, enlarges.dict? used]
      cases first.dict? ref with
      | none => exact .error _ _
      | some table => exact .tooDeep _
  | succ depth ih =>
    intro id ref old used
    obtain ⟨deep, rfl⟩ := Nat.exists_eq_add_of_le' deeper
    cases wrapped : first.wrapped? ref with
    | some parts => exact struct_like_of_wrapped program enlarges wrapped used
    | none =>
      unfold struct
      rw [enlarges.wrapped ref used, wrapped, enlarges.dict? used]
      cases found : first.dict? ref with
      | none => exact .error _ _
      | some table =>
        cases old with
        | struct olds =>
          refine Like.bind ?_ fun values => .ok _
          refine fields_like program enlarges (ih (Nat.le_add_left depth deep)) _
            (fun inner member => ?_) _ _
          exact enlarges.closed ref inner (by rw [Heap.dict?_eq_some found]; exact member)
        | _ => exact .ok _

/-- An object is read alike. -/
theorem fresh_like (program : Program) (enlarges : first.Enlarges second) (registry : RegistryId)
    (type : HostType)
    {ref : Ref} (used : ref.place < first.size) :
    Like (fresh program first registry type ref) (fresh program second registry type ref) :=
  valueWith_like program enlarges (struct_like program enlarges registry
    (Nat.mul_le_mul_left _ (Nat.succ_le_succ enlarges.size))) type ref _ used

end Decode

/-! ## Other host code -/

/-- Two programs that declare the same, whatever their code does. -/
structure Program.Declares (program other : Program) : Prop where
  structs : ∀ id, (other.struct id).name = (program.struct id).name ∧
    (other.struct id).fields = (program.struct id).fields
  count : other.structs.length = program.structs.length
  methods : ∀ owner index, other.method owner index =
    { program.method owner index with run := (other.method owner index).run }
  functions : ∀ code, other.function code =
    { program.function code with run := (other.function code).run }
  makers : ∀ code, other.maker code =
    { program.maker code with run := (other.maker code).run }
  sealedTypes : other.sealedTypes = program.sealedTypes
  typePath : other.typePath = program.typePath

namespace Program.Declares

variable {program other : Program}

/-- What holds whatever the code does holds of the program itself. -/
theorem refl (program : Program) : program.Declares program :=
  ⟨fun _ => ⟨rfl, rfl⟩, rfl, fun _ _ => rfl, fun _ => rfl, fun _ => rfl, rfl, rfl⟩

theorem zeroStruct (declares : program.Declares other) (depth : Nat) :
    other.zeroStruct depth = program.zeroStruct depth := by
  induction depth with
  | zero => rfl
  | succ depth ih =>
    funext id
    rw [Program.zeroStruct, Program.zeroStruct, ih, (declares.structs id).2]

theorem zero (declares : program.Declares other) (type : HostType) :
    other.zero type = program.zero type := by
  rw [Program.zero, Program.zero, declares.count, declares.zeroStruct]

theorem typeName (declares : program.Declares other) (type : HostType) :
    other.typeName type = program.typeName type := by
  cases type with
  | struct id => exact (declares.structs id).1
  | «sealed» id => simp only [Program.typeName, declares.sealedTypes]
  | float width | complex width => cases width <;> rfl
  | seq _ | map _ _ _ | boxed _ | optional _ | tuple _ | bytes =>
    simp only [Program.typeName, declares.typePath]
  | _ => rfl

theorem slotParameters (declares : program.Declares other) (slot : Slot) :
    other.slotParameters slot = program.slotParameters slot := by
  unfold Program.slotParameters
  split
  · rw [declares.makers]
  · rw [declares.methods]
  · rw [declares.functions]
  · rfl
  · rename_i owner index _
    simp only [Program.field, (declares.structs owner).2]

end Program.Declares

namespace Decode

variable {program other : Program} {heap : Heap} {structs : Structs}

mutual

/-- Host code takes no part in reading an object. -/
theorem valueWith_congr (declares : program.Declares other) : ∀ (type : HostType) (ref : Ref)
    (old : HostValue), valueWith other heap structs type ref old =
      valueWith program heap structs type ref old
  | .seq element, ref, old => by
    simp only [valueWith, declares.zero, valueWith_congr declares element]
  | .map order key value, ref, old => by
    simp only [valueWith, declares.zero, valueWith_congr declares key,
      valueWith_congr declares value]
  | .boxed element, ref, old => by
    simp only [valueWith, valueWith_congr declares element]
  | .optional element, ref, old => by
    simp only [valueWith, declares.zero, valueWith_congr declares element]
  | .tuple elements, ref, old => by
    simp only [valueWith, elementsWith_congr declares elements]
  | .sealed id, ref, old => by
    simp only [valueWith, noForm, declares.typeName]
  | .float width, ref, old | .complex width, ref, old => by
    cases width <;> simp only [valueWith]
  | .unit, ref, old | .bool, ref, old | .int _, ref, old | .text, ref, old | .bytes, ref, old
  | .object, ref, old | .keywords, ref, old | .struct _, ref, old => by simp only [valueWith]

theorem elementsWith_congr (declares : program.Declares other) : ∀ (types : List HostType)
    (items : List Ref) (index : Nat), elementsWith other heap structs types items index =
      elementsWith program heap structs types items index
  | [], items, index => by simp only [elementsWith]
  | type :: types, [], index => by simp only [elementsWith]
  | type :: types, item :: items, index => by
    simp only [elementsWith, declares.zero, valueWith_congr declares type,
      elementsWith_congr declares types]

end

theorem fields_congr (declares : program.Declares other) (owner : String) (table : Dict) :
    ∀ (decls : List FieldDecl) (olds : List HostValue),
      fields other heap structs owner table decls olds =
        fields program heap structs owner table decls olds
  | [], olds => by simp only [fields]
  | field :: rest, [] => by simp only [fields]
  | field :: rest, old :: olds => by
    simp only [fields, valueWith_congr declares, fields_congr declares owner table rest]

theorem struct_congr (declares : program.Declares other) (registry : RegistryId) (depth : Nat) :
    struct other heap registry depth = struct program heap registry depth := by
  induction depth with
  | zero =>
    funext id ref old
    unfold struct
    simp only [(declares.structs id).1]
    cases heap.dict? ref <;> rfl
  | succ depth ih =>
    funext id ref old
    unfold struct
    simp only [(declares.structs id).1]
    cases heap.dict? ref with
    | none => rfl
    | some table => simp only [(declares.structs id).2, ih, fields_congr declares]

theorem fresh_congr (declares : program.Declares other) (registry : RegistryId) (type : HostType)
    (ref : Ref) : fresh other heap registry type ref = fresh program heap registry type ref := by
  rw [fresh, fresh, value, value, declares.zero, struct_congr declares, valueWith_congr declares,
    depth, depth, declares.count]

end Decode

end HostBridge
