import HostBridge.Proofs.Calling.Run
import HostBridge.Proofs.Codec.Keys
import HostBridge.Proofs.Dict.Literal

/-!
# Encoding makes what stands for a value

A value of a type whose values come back is always encoded, and what is made stands for it.  The
keys of a map have projections that differ, for the keys do, and so no entry of the dict takes the
place of another.  The names of fields differ as well, so the value of each is found under its own.
-/

namespace HostBridge

open Op

variable {program : Program} {touch : Permission} {registry : RegistryId}
  {registered plain : StructId → Prop} {world after : World} {held : Multiset Ref}

/-- A struct has a registered type. -/
def World.registers (world : World) (registry : RegistryId) (id : StructId) : Prop :=
  ((world.registry registry).handle? id).isSome = true

/-- A world in which those structs are registered that are said to be, and in which the others
that values lead to show all that they hold. -/
structure World.Encodes (program : Program) (registry : RegistryId)
    (registered plain : StructId → Prop) (world : World) (held : Multiset Ref) : Prop where
  sound : world.Sound program held
  registers : ∀ id, registered id ↔ world.registers registry id
  shows : ∀ id, plain id → (program.struct id).Open registered plain

namespace World.Makes

variable {taken : List Ref}

/-- The order in which references are handed over does not matter. -/
theorem congr {given taken' : List Ref} (made : World.Makes program touch world given after taken)
    (same : taken.Perm taken') : World.Makes program touch world given after taken' := by
  refine ⟨fun held => ?_, made.more⟩
  rw [← Multiset.coe_eq_coe.mpr same]
  exact made.path held

/-- Places that have been used stay so. -/
theorem usedAll {given refs : List Ref} (made : World.Makes program touch world given after taken)
    (used : ∀ ref ∈ refs, ref.place < world.heap.size) :
    ∀ ref ∈ refs, ref.place < after.heap.size :=
  fun ref member => Nat.lt_of_lt_of_le (used ref member) (made.path 0).grows.places

/-- Making objects leaves a world in which values are encoded as before. -/
theorem encodes (made : World.Makes program touch world [] after taken)
    (ready : world.Encodes program registry registered plain held) :
    after.Encodes program registry registered plain (held + taken) where
  sound := (made.path_new held).sound ready.sound
  registers id := by
    rw [ready.registers id, World.registers, World.registers, Registry.handle?, Registry.handle?,
      made.more.types registry]
  shows := ready.shows

end World.Makes

/-! ## Operations that make objects one after the other -/

namespace Op

theorem Makes.weaken {α : Type} {action : Op α} {given : List Ref} {taken : α → List Ref}
    {post post' : α → World → Prop} (makes : Makes program touch action world given taken post)
    (weaker : ∀ value after, post value after → world.Extends after → post' value after) :
    Makes program touch action world given taken post' := by
  obtain ⟨value, after, ended, made, holds⟩ := makes
  exact ⟨value, after, ended, made, weaker value after holds made.more⟩

theorem makes_retain {ref : Ref} (used : ref.place < world.heap.size) :
    Makes program touch (retain ref) world [] (fun ref => [ref]) fun given _ => given = ref := by
  refine ⟨ref, world.retain ref, rfl, ⟨fun held => ?_, .retain world ref⟩, rfl⟩
  have path : Path program touch world held (world.retain ref) (held + {ref}) := .retain used
  rwa [Multiset.coe_nil, add_zero, Multiset.coe_singleton]

theorem makes_place (body : Body) (plain : body.Plain program) :
    Makes program touch (place body) world body.references (fun ref => [ref]) fun ref after =>
      ref = world.heap.next ∧ after.heap.body ref = body :=
  ⟨_, _, rfl, ⟨fun _ => .place plain, .place world body⟩, rfl,
    Heap.body_eq (Heap.cell?_push_next _ _)⟩

/-- A new object that owns nothing. -/
theorem makes_scalar (body : Body) (plain : body.Plain program) (alone : body.references = []) :
    Makes program touch (place body) world [] (fun ref => [ref]) fun ref after =>
      after.heap.body ref = body := by
  have made : Makes program touch (place body) world body.references (fun ref => [ref])
      fun ref after => ref = world.heap.next ∧ after.heap.body ref = body := makes_place body plain
  rw [alone] at made
  exact made.weaken fun _ _ holds _ => holds.2

/-- An operation that puts what it makes behind what has been made, which is listed from the
last to the first. -/
def Adds {α : Type} (program : Program) (touch : Permission) (action : Op (List α))
    (world : World) (done : List α) (taken : List α → List Ref)
    (post : List α → World → Prop) : Prop :=
  ∃ made after, action.run world = (.ok (done.reverse ++ made), after) ∧
    World.Makes program touch world [] after (taken made) ∧ post made after

namespace Adds

variable {α : Type} {action : Op (List α)} {done : List α} {taken : List α → List Ref}
  {post : List α → World → Prop}

theorem nothing (none : taken [] = []) (holds : post [] world) :
    Adds program touch (return done.reverse) world done taken post := by
  refine ⟨[], world, ?_, ?_, holds⟩
  · rw [List.append_nil]
    rfl
  · rw [none]
    exact .refl world []

/-- One thing more has been made before the rest. -/
theorem cons {made : List Ref} {one : α} {middle : World} {post' : List α → World → Prop}
    (first : World.Makes program touch world [] middle made)
    (rest : Adds program touch action middle (one :: done) taken post)
    {action' : Op (List α)} (ran : action'.run world = action.run middle)
    (order : ∀ later, (made ++ taken later).Perm (taken (one :: later)))
    (holds : ∀ later after, World.Makes program touch middle [] after (taken later) →
      post later after → post' (one :: later) after) :
    Adds program touch action' world done taken post' := by
  obtain ⟨later, after, ended, made', holds'⟩ := rest
  refine ⟨one :: later, after, ?_, (first.append made').congr (order later),
    holds later after made' holds'⟩
  rw [ran, ended, List.reverse_cons, List.append_assoc]
  rfl

/-- What is put behind nothing is all that is made. -/
theorem makes (adds : Adds program touch action world [] taken post) :
    Makes program touch action world [] taken post := adds

end Adds

end Op

/-! ## Lists of objects that stand for values -/

section

variable (more : world.Extends after) {bound : Nat}

include more

theorem DenotesEach.extends {element : HostType} {values : List HostValue} {items : List Ref}
    (each : DenotesEach program world.heap registry registered bound element values items) :
    DenotesEach program after.heap registry registered bound element values items :=
  each.transfer more.retains fun _ _ lasting => lasting.something

theorem DenotesAll.extends {types : List HostType} {values : List HostValue} {items : List Ref}
    (each : DenotesAll program world.heap registry registered bound types values items) :
    DenotesAll program after.heap registry registered bound types values items :=
  each.transfer more.retains fun _ _ lasting => lasting.something

theorem DenotesEntries.extends {keyType valueType : HostType}
    {values : List (HostValue × HostValue)} {entries : List DictEntry}
    (each : DenotesEntries program world.heap registry registered bound keyType valueType values
      entries) :
    DenotesEntries program after.heap registry registered bound keyType valueType values entries :=
  each.transfer more.retains fun _ _ => ⟨Body.Lasting.something, Body.Lasting.something⟩

theorem DenotesFields.extends {table : Dict} {fields : List FieldDecl} {values : List HostValue}
    (each : DenotesFields program world.heap registry registered bound table fields values) :
    DenotesFields program after.heap registry registered bound table fields values :=
  each.transfer more.retains fun _ _ _ lasting => lasting.something

end

/-! ## Keys that are told apart -/

section

variable {heap : Heap} {bound : Nat}

theorem Heap.key_of_text {ref : Ref} {name : String} (reading : heap.body ref = .text name) :
    heap.key ref = .ok (.text name) := by
  rw [Heap.key, Heap.keyWithin, reading]

/-- Texts that differ are told apart. -/
theorem Heap.tellsApart_texts {keys : List Ref} {names : List String}
    (texts : keys.map heap.body = names.map .text) (distinct : names.Nodup) :
    heap.TellsApart keys := by
  induction names generalizing keys with
  | nil =>
    obtain rfl := List.map_eq_nil_iff.mp texts
    exact .nil
  | cons name names ih =>
    obtain ⟨key, keys, rfl, reading, readings⟩ := List.map_eq_cons_iff.mp texts
    obtain ⟨fresh, distinct⟩ := List.nodup_cons.mp distinct
    refine (ih readings distinct).cons (Heap.key_of_text reading) fun other member same => ?_
    have among : heap.body other ∈ names.map Body.text := by
      rw [← readings]
      exact List.mem_map_of_mem member
    obtain ⟨name', inside, reading'⟩ := List.mem_map.mp among
    rw [Heap.key_of_text reading, Heap.key_of_text reading'.symm] at same
    cases same
    exact fresh inside

/-- Each key stands for one of the keys of the map. -/
theorem DenotesEntries.exists_denotes {keyType valueType : HostType} :
    ∀ {values : List (HostValue × HostValue)} {entries : List DictEntry},
      DenotesEntries program heap registry registered bound keyType valueType values entries →
        ∀ entry ∈ entries, entry.key.place < bound ∧ ∃ key ∈ values.map (·.1),
          Denotes program heap registry registered keyType key entry.key
  | _, _, .nil, entry, member => by cases member
  | _, _, .cons below _ first _ rest, entry, member => by
    rcases List.mem_cons.mp member with rfl | later
    · exact ⟨below, _, by simp, first⟩
    · obtain ⟨inside, key, among, denotes⟩ := rest.exists_denotes entry later
      exact ⟨inside, key, by simp [among], denotes⟩

/-- Objects for different keys are told apart. -/
theorem DenotesEntries.tellsApart (rooted : heap.Rooted) {keyType valueType : HostType}
    (keyed : keyType.Keyed registered) (within : bound ≤ heap.size + 1) :
    ∀ {values : List (HostValue × HostValue)} {entries : List DictEntry},
      DenotesEntries program heap registry registered bound keyType valueType values entries →
        (values.map (·.1)).Nodup → heap.TellsApart (entries.map (·.key))
  | _, _, .nil, _ => .nil
  | _, _, .cons below _ first _ rest, distinct => by
    obtain ⟨fresh, distinct⟩ := List.nodup_cons.mp distinct
    have deep := Nat.lt_of_lt_of_le below within
    obtain ⟨projection, hashed⟩ := first.exists_key rooted keyed deep
    refine (rest.tellsApart rooted keyed within distinct).cons hashed fun other member same => ?_
    obtain ⟨entry, inside, rfl⟩ := List.mem_map.mp member
    obtain ⟨below', key, among, denotes⟩ := rest.exists_denotes entry inside
    have equal := Denotes.eq_of_key rooted keyed first denotes deep
      (Nat.lt_of_lt_of_le below' within) hashed (same.symm.trans hashed)
    exact fresh (equal ▸ among)

/-- Names and objects that are to be the dict of a struct: the object beside the name of a field
stands for the value of the field. -/
structure DenotesNamed (program : Program) (heap : Heap) (registry : RegistryId)
    (registered : StructId → Prop) (fields : List FieldDecl) (values : List HostValue)
    (pairs : List (Ref × Ref)) : Prop where
  names : pairs.map (fun pair => heap.body pair.1) =
    fields.map fun field => .text (Name.snake field.name)
  fields : ∀ table : Dict, (∀ pair ∈ pairs, ∀ name, heap.body pair.1 = .text name →
    table.get? (.text name) = some pair.2) →
      DenotesFields program heap registry registered heap.size table fields values

end

/-! ## Encoding -/

namespace Op

theorem run_handle? (registry : RegistryId) (id : StructId) (world : World) :
    (handle? registry id).run world = (.ok ((world.registry registry).handle? id), world) := rfl

/-- A wrapper of a regular value owns that value. -/
theorem copied_of_regular {value : HostValue} (regular : value.Regular) :
    copied value world = value := by
  rw [copied, HostValue.completed_of_regular value _ regular]

end Op

namespace Encode

variable (program touch registry registered plain) in
/-- Encoding a value makes an object that stands for it. -/
abbrev MakesValue (type : HostType) (value : HostValue) (world : World) : Prop :=
  Makes program touch (Encode.value program registry type value) world [] (fun ref => [ref])
    fun ref after => Denotes program after.heap registry registered type value ref

/-- The names and objects of the fields come to be a dict that stands for the struct, if it is not
registered. -/
theorem makes_fieldDict {held : Multiset Ref} {id : StructId} {values : List HostValue}
    {pairs : List (Ref × Ref)}
    (sound : world.Sound program (held + pairReferences pairs))
    (distinct : ((program.struct id).fields.map fun field => Name.snake field.name).Nodup)
    (unregistered : ¬registered id)
    (each : DenotesNamed program world.heap registry registered (program.struct id).fields values
      pairs) :
    Makes program touch (placeDict pairs) world (pairReferences pairs) (fun ref => [ref])
      fun ref after =>
        Denotes program after.heap registry registered (.struct id) (.struct values) ref := by
  have texts : (pairs.map (·.1)).map world.heap.body =
      ((program.struct id).fields.map fun field => Name.snake field.name).map .text := by
    rw [List.map_map, List.map_map]
    exact each.names
  refine (makes_placeDict sound (Heap.tellsApart_texts texts distinct)).weaken ?_
  rintro _ after ⟨rfl, table, reading, listed, exact'⟩ more
  have found : ∀ pair ∈ pairs, ∀ name, world.heap.body pair.1 = .text name →
      table.get? (.text name) = some pair.2 := by
    intro pair member name written
    have hashed : world.heap.key (DictEntry.ofPair pair).key = .ok (.text name) :=
      Heap.key_of_text written
    have inside : DictEntry.ofPair pair ∈ table.entries := by
      rw [listed]
      exact List.mem_map_of_mem member
    exact exact'.get?_of_mem inside hashed
  exact .fields unregistered reading ((each.fields table found).extends more)

mutual

/-- A value of a type whose values come back is encoded as an object that stands for it. -/
theorem makes_value : ∀ (value : HostValue) {type : HostType} {world : World}
    {held : Multiset Ref}, world.Encodes program registry registered plain held →
    value.fits program type = true → value.Regular →
    (∀ ref ∈ value.references, ref.place < world.heap.size) → type.Returns registered plain →
      MakesValue program touch registry registered type value world
  | .unit, _, _, _, ready, fit, _, _, _ => by
    obtain rfl := HostValue.shapes_of_fits fit
    refine (makes_retain (ready.sound.used_of_first (by decide))).weaken ?_
    rintro _ after rfl _
    exact .unit
  | .bool value, _, _, _, ready, fit, _, _, _ => by
    obtain rfl := HostValue.shapes_of_fits fit
    refine (makes_retain (ready.sound.used_of_first (by cases value <;> decide))).weaken ?_
    rintro _ after rfl _
    exact .bool value
  | .int value, _, _, _, _, fit, _, _, _ => by
    obtain ⟨kind, rfl, inside⟩ := HostValue.shapes_of_fits fit
    exact (makes_scalar (.int value) trivial rfl).weaken fun _ _ reading _ => .int inside reading
  | .single value, _, _, _, _, fit, _, _, _ => by
    obtain rfl := HostValue.shapes_of_fits fit
    exact (makes_scalar (.float value.toBinary64) trivial rfl).weaken
      fun _ _ reading _ => .single reading
  | .double value, _, _, _, _, fit, _, _, _ => by
    obtain rfl := HostValue.shapes_of_fits fit
    exact (makes_scalar (.float value) trivial rfl).weaken fun _ _ reading _ => .double reading
  | .complexSingle real imaginary, _, _, _, _, fit, _, _, _ => by
    obtain rfl := HostValue.shapes_of_fits fit
    exact (makes_scalar (.complex real.toBinary64 imaginary.toBinary64) trivial rfl).weaken
      fun _ _ reading _ => .complexSingle reading
  | .complexDouble real imaginary, _, _, _, _, fit, _, _, _ => by
    obtain rfl := HostValue.shapes_of_fits fit
    exact (makes_scalar (.complex real imaginary) trivial rfl).weaken
      fun _ _ reading _ => .complexDouble reading
  | .text value, _, _, _, _, fit, _, _, _ => by
    obtain rfl := HostValue.shapes_of_fits fit
    exact (makes_scalar (.text value) trivial rfl).weaken fun _ _ reading _ => .text reading
  | .bytes value, _, _, _, _, fit, _, _, _ => by
    obtain rfl := HostValue.shapes_of_fits fit
    exact (makes_scalar (.bytes value) trivial rfl).weaken fun _ _ reading _ => .bytes reading
  | .seq values, _, _, _, ready, fit, regular, used, returns => by
    obtain ⟨element, rfl, fit⟩ := HostValue.shapes_of_fits fit
    have items := makes_elements values [] ready fit regular used returns
    refine items.makes.bind fun refs after _ each => (makes_place (.list refs) trivial).weaken ?_
    rintro _ final ⟨rfl, reading⟩ more
    exact .seq reading (each.extends more)
  | .map entries, _, _, _, ready, fit, regular, used, returns => by
    obtain ⟨order, key, value, rfl, fit⟩ := HostValue.shapes_of_fits fit
    obtain ⟨ascending, regular⟩ := regular
    obtain ⟨keyed, keyReturns, valueReturns⟩ := returns
    have pairs := makes_entries entries [] ready fit regular used keyReturns valueReturns
    refine pairs.makes.bind fun refs after made each => ?_
    have sound := (made.encodes ready).sound
    have rooted := sound.grounded.rooted
    have apart := each.tellsApart rooted keyed (Nat.le_succ _) ascending.nodup
    rw [List.map_map] at apart
    refine (makes_placeDict sound apart).weaken ?_
    rintro _ final ⟨rfl, table, reading, listed, _⟩ more
    rw [← listed] at each
    exact .map keyed ascending reading (each.extends more)
  | .struct values, _, world, _, ready, fit, regular, used, returns => by
    obtain ⟨id, rfl, fit⟩ := HostValue.shapes_of_fits fit
    cases handle : (world.registry registry).handle? id with
    | some shape =>
      have entered := Registry.mem_types_of_handle? handle
      obtain ⟨bridged, typed, same, rfl⟩ := ready.sound.wired.handle registry id shape entered
      obtain ⟨ref, after, ran, made, reading⟩ := makes_wrapCopy typed same fit used
      refine ⟨ref, after, ?_, made, ?_⟩
      · rw [Encode.value, Operation.run_bind_of_ok (run_handle? registry _ world), handle]
        exact ran
      · rw [copied_of_regular regular] at reading
        exact .wrapper reading same rfl
    | none =>
      have unregistered : ¬registered id := by
        rw [ready.registers id, World.registers, handle]
        exact Bool.false_ne_true
      have shown := ready.shows id (returns.resolve_left unregistered)
      have pairs := makes_fields values [] ready fit regular used shown.exported shown.returns
      have looked : (Encode.value program registry (.struct id) (.struct values)).run world =
          (Encode.fields program registry (program.struct id).fields [] values >>=
            placeDict).run world := by
        rw [Encode.value, Operation.run_bind_of_ok (run_handle? registry id world), handle]
      rw [MakesValue, Makes, looked]
      refine pairs.makes.bind fun refs after made each => ?_
      exact makes_fieldDict (made.encodes ready).sound shown.names unregistered each
  | .boxed value, _, _, _, ready, fit, regular, used, returns => by
    obtain ⟨element, rfl, fit⟩ := HostValue.shapes_of_fits fit
    exact (makes_value value ready fit regular used returns).weaken fun _ _ inner _ => .boxed inner
  | .absent, _, _, _, ready, fit, _, _, _ => by
    obtain ⟨element, rfl⟩ := HostValue.shapes_of_fits fit
    refine (makes_retain (ready.sound.used_of_first (by decide))).weaken ?_
    rintro _ after rfl _
    exact .absent
  | .present value, _, _, _, ready, fit, regular, used, returns => by
    obtain ⟨element, rfl, fit⟩ := HostValue.shapes_of_fits fit
    obtain ⟨solid, returns⟩ := returns
    exact (makes_value value ready fit regular used returns).weaken
      fun _ _ inner _ => .present solid inner
  | .tuple values, _, _, _, ready, fit, regular, used, returns => by
    obtain ⟨types, rfl, fit⟩ := HostValue.shapes_of_fits fit
    have items := makes_components values [] ready fit regular used returns
    refine items.makes.bind fun refs after _ each => (makes_place (.tuple refs) trivial).weaken ?_
    rintro _ final ⟨rfl, reading⟩ more
    exact .tuple reading (each.extends more)
  | .object _, _, _, _, _, fit, _, _, returns => by
    obtain rfl := HostValue.shapes_of_fits fit
    exact returns.elim
  | .keywords _, _, _, _, _, fit, _, _, returns => by
    obtain rfl := HostValue.shapes_of_fits fit
    exact returns.elim
  | .sealed _, _, _, _, _, fit, _, _, returns => by
    obtain ⟨id, rfl⟩ := HostValue.shapes_of_fits fit
    exact returns.elim

/-- The items of a sequence are encoded one after the other. -/
theorem makes_elements : ∀ (values : List HostValue) (done : List Ref) {element : HostType}
    {world : World} {held : Multiset Ref},
    world.Encodes program registry registered plain held →
    HostValue.fitsEach program element values = true → HostValue.RegularAll values →
    (∀ ref ∈ HostValue.referencesAll values, ref.place < world.heap.size) →
    element.Returns registered plain →
      Adds program touch (Encode.elements program registry element done values) world done id
        fun items after =>
          DenotesEach program after.heap registry registered after.heap.size element values items
  | [], done, _, _, _, _, _, _, _, _ => .nothing rfl .nil
  | head :: tail, done, element, _, _, ready, fit, regular, used, returns => by
    simp only [HostValue.fitsEach, Bool.and_eq_true] at fit
    simp only [HostValue.referencesAll, List.mem_append] at used
    obtain ⟨ref, middle, ran, made, denotes⟩ :=
      makes_value head ready fit.1 regular.1 (fun ref member => used ref (.inl member)) returns
    have ready' := made.encodes ready
    have rest := makes_elements tail (ref :: done) ready' fit.2 regular.2
      (made.usedAll fun ref member => used ref (.inr member)) returns
    refine rest.cons made ?_ (fun _ => .refl _) fun items after made' each => ?_
    · rw [Encode.elements, Operation.run_bind_of_ok (run_undoing_of_ok ran _)]
    · have denotes' := denotes.extends made'.more
      exact .cons (denotes'.used (made'.encodes ready').sound.grounded) denotes' each

/-- The items of a tuple are encoded one after the other. -/
theorem makes_components : ∀ (values : List HostValue) (done : List Ref) {types : List HostType}
    {world : World} {held : Multiset Ref},
    world.Encodes program registry registered plain held →
    HostValue.fitsAll program types values = true → HostValue.RegularAll values →
    (∀ ref ∈ HostValue.referencesAll values, ref.place < world.heap.size) →
    HostType.ReturnsAll registered plain types →
      Adds program touch (Encode.components program registry types done values) world done id
        fun items after =>
          DenotesAll program after.heap registry registered after.heap.size types values items
  | [], done, [], _, _, _, _, _, _, _ => .nothing rfl .nil
  | [], done, type :: types, _, _, _, fit, _, _, _ => by cases fit
  | head :: tail, done, [], _, _, _, fit, _, _, _ => by cases fit
  | head :: tail, done, type :: types, _, _, ready, fit, regular, used, returns => by
    simp only [HostValue.fitsAll, Bool.and_eq_true] at fit
    simp only [HostValue.referencesAll, List.mem_append] at used
    obtain ⟨ref, middle, ran, made, denotes⟩ :=
      makes_value head ready fit.1 regular.1 (fun ref member => used ref (.inl member)) returns.1
    have ready' := made.encodes ready
    have rest := makes_components tail (ref :: done) ready' fit.2 regular.2
      (made.usedAll fun ref member => used ref (.inr member)) returns.2
    refine rest.cons made ?_ (fun _ => .refl _) fun items after made' each => ?_
    · rw [Encode.components, Operation.run_bind_of_ok (run_undoing_of_ok ran _)]
    · have denotes' := denotes.extends made'.more
      exact .cons (denotes'.used (made'.encodes ready').sound.grounded) denotes' each

/-- The keys and values of a map are encoded one after the other. -/
theorem makes_entries : ∀ (entries : List (HostValue × HostValue)) (done : List (Ref × Ref))
    {key value : HostType} {world : World} {held : Multiset Ref},
    world.Encodes program registry registered plain held →
    HostValue.fitsEntries program key value entries = true → HostValue.RegularEntries entries →
    (∀ ref ∈ HostValue.referencesEntries entries, ref.place < world.heap.size) →
    key.Returns registered plain → value.Returns registered plain →
      Adds program touch (Encode.entries program registry key value done entries) world done
        pairReferences fun pairs after =>
          DenotesEntries program after.heap registry registered after.heap.size key value entries
            (pairs.map .ofPair)
  | [], done, _, _, _, _, _, _, _, _, _, _ => .nothing rfl .nil
  | (key, content) :: tail, done, _, _, _, _, ready, fit, regular, used, keyReturns,
      valueReturns => by
    simp only [HostValue.fitsEntries, Bool.and_eq_true] at fit
    simp only [HostValue.referencesEntries, List.mem_append] at used
    obtain ⟨keyRegular, contentRegular, regular⟩ := regular
    obtain ⟨keyRef, middle, ran, made, first⟩ := makes_value key ready fit.1.1 keyRegular
      (fun ref member => used ref (.inl (.inl member))) keyReturns
    have ready' := made.encodes ready
    obtain ⟨ref, middle', ran', made', second⟩ := makes_value content ready' fit.1.2 contentRegular
      (made.usedAll fun ref member => used ref (.inl (.inr member))) valueReturns
    have ready'' := made'.encodes ready'
    have rest := makes_entries tail ((keyRef, ref) :: done) ready'' fit.2 regular
      (made'.usedAll (made.usedAll fun ref member => used ref (.inr member))) keyReturns
      valueReturns
    refine rest.cons (made.append made') ?_ (fun _ => .refl _) fun pairs after made'' each => ?_
    · rw [Encode.entries, Operation.run_bind_of_ok (run_undoing_of_ok ran _),
        Operation.run_bind_of_ok (run_undoing_of_ok ran' _)]
    · have grounded := (made''.encodes ready'').sound.grounded
      have first' := (first.extends made'.more).extends made''.more
      have second' := second.extends made''.more
      exact .cons (first'.used grounded) (second'.used grounded) first' second' each

/-- The names and values of exported fields are encoded one after the other. -/
theorem makes_fields : ∀ (values : List HostValue) (done : List (Ref × Ref))
    {fields : List FieldDecl} {world : World} {held : Multiset Ref},
    world.Encodes program registry registered plain held →
    HostValue.fitsAll program (fields.map (·.type)) values = true → HostValue.RegularAll values →
    (∀ ref ∈ HostValue.referencesAll values, ref.place < world.heap.size) →
    (∀ field ∈ fields, field.exported = true) →
    (∀ field ∈ fields, field.type.Returns registered plain) →
      Adds program touch (Encode.fields program registry fields done values) world done
        pairReferences fun pairs after =>
          DenotesNamed program after.heap registry registered fields values pairs
  | [], done, [], _, _, _, _, _, _, _, _ => .nothing rfl ⟨rfl, fun _ _ => .nil⟩
  | [], done, field :: rest, _, _, _, fit, _, _, _, _ => by cases fit
  | head :: tail, done, [], _, _, _, fit, _, _, _, _ => by cases fit
  | head :: tail, done, field :: rest, _, _, ready, fit, regular, used, exported, returns => by
    simp only [List.map_cons, HostValue.fitsAll, Bool.and_eq_true] at fit
    simp only [HostValue.referencesAll, List.mem_append] at used
    obtain ⟨ref, middle, ran, made, denotes⟩ := makes_value head ready fit.1 regular.1
      (fun ref member => used ref (.inl member)) (returns field (by simp))
    have ready' := made.encodes ready
    have scalar : Makes program touch (place (.text (Name.snake field.name))) middle []
        (fun ref => [ref]) fun ref after => after.heap.body ref = .text (Name.snake field.name) :=
      makes_scalar _ trivial rfl
    obtain ⟨name, middle', ran', made', written⟩ := scalar
    have ready'' := made'.encodes ready'
    have others := makes_fields tail ((name, ref) :: done) ready'' fit.2 regular.2
      (made'.usedAll (made.usedAll fun ref member => used ref (.inr member)))
      (fun other member => exported other (by simp [member]))
      (fun other member => returns other (by simp [member]))
    refine others.cons (made.append made') ?_ ?_ fun pairs after made'' each => ?_
    · rw [Encode.fields, if_pos (exported field (by simp)),
        Operation.run_bind_of_ok (run_undoing_of_ok ran _), Operation.run_bind_of_ok ran']
    · exact fun _ => .swap _ _ _
    · have written' := made''.more.body written (by simp)
      have denotes' := (denotes.extends made'.more).extends made''.more
      constructor
      · rw [List.map_cons, List.map_cons, each.names, written']
      · intro table found
        refine .cons (exported field (by simp)) (found (name, ref) (by simp) _ written')
          (denotes'.used (made''.encodes ready'').sound.grounded) denotes' (each.fields table ?_)
        exact fun pair member => found pair (by simp [member])

end

end Encode

end HostBridge
