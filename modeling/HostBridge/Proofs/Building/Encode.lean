import HostBridge.Proofs.Building.Visible
import HostBridge.Proofs.Building.Yield
import HostBridge.Proofs.Wiring.Exceptions

/-!
# Encoding builds

The object for a value is built on the world in which encoding begins.  It is known from the value
whether the object has a projection, and so when a map can be made; objects that are made later do
not change that.
-/

namespace HostBridge

open Op

variable {program : Program} {lent : Ref → Prop} {base world : World} {frame held : Multiset Ref}
  {registry : RegistryId}

/-- Data without parts. -/
def Body.Atomic : Body → Prop
  | .int _ | .float _ | .complex _ _ | .text _ | .bytes _ => True
  | _ => False

namespace Body.Atomic

variable {body : Body}

theorem data (atomic : body.Atomic) : body.Data := by
  cases body <;> trivial

theorem keyless (atomic : body.Atomic) : body.Keyless := by
  cases body <;> trivial

theorem references (atomic : body.Atomic) : body.references = [] := by
  cases body <;> first | rfl | exact atomic.elim

theorem hashable {heap : Heap} {ref : Ref} (atomic : (heap.body ref).Atomic) :
    heap.Hashable ref := by
  refine Heap.hashable_of_single (fun unkeyed => ?_) fun items reading => ?_
  · cases reading : heap.body ref <;> simp_all [Body.Atomic, Body.Unkeyed]
  · rw [reading] at atomic
    exact atomic

end Body.Atomic

/-- A world that lends what encoding in a registry needs. -/
structure World.Serves (program : Program) (base : World) (registry : RegistryId)
    (lent : Ref → Prop) (frame : Multiset Ref) : Prop extends
    base.Foundation program lent frame where
  first : ∀ ref : Ref, ref.place < Heap.initial.size → lent ref
  handles : ∀ id type, (base.registry registry).handle? id = some type → lent type

namespace World.Serves

variable (serves : base.Serves program registry lent frame)

include serves

theorem used (begun : Builds program lent base 0 world held) {ref : Ref} (found : lent ref) :
    ref.place < world.heap.size :=
  Nat.lt_of_lt_of_le (serves.old ref found) (begun.path .nothing).grows.places

/-- What is held, or owned by something, has a projection if it had one. -/
theorem hashable_iff {middle : World} {left : Multiset Ref}
    (begun : Builds program lent base 0 middle held)
    (builds : Builds program lent middle held world left) {ref : Ref}
    (used : ref.place < middle.heap.size) (member : ref ∈ world.owed left) :
    world.heap.Hashable ref ↔ middle.heap.Hashable ref := by
  rw [Heap.Hashable, Heap.Hashable,
    begun.same_key builds serves.sound serves.tidy serves.layered serves.old used member]

theorem layered_of_builds (begun : Builds program lent base 0 world held) :
    world.heap.Layered := by
  have sound := serves.sound
  rw [← zero_add frame] at sound
  exact ((begun.path .nothing).frame frame).layered sound serves.layered

theorem handle? (begun : Builds program lent base 0 world held) (id : StructId) :
    (world.registry registry).handle? id = (base.registry registry).handle? id := by
  have backdrop := (begun.underlies serves.sound serves.tidy).backdrop
  rw [Registry.handle?, Registry.handle?, (World.registry_of_backdrop backdrop registry).2.2]

end World.Serves

namespace Encode

variable (program lent base registry) in
/-- An object for a value of a type is built, and it is known whether it has a projection. -/
abbrev YieldsValue (type : HostType) (value : HostValue) (world : World) : Prop :=
  Yields program lent base (Encode.value program registry type value) world 0 (fun ref => {ref})
    (fun ref after => Fine program base.heap (base.registers registry) (type, value) ∧
      (after.heap.Hashable ref ↔ Hashes base.heap (base.registers registry) type value))
    (Blames program base.heap (base.registers registry) (type, value))

/-- A new object for a scalar. -/
theorem yields_atom {type : HostType} {value : HostValue} (body : Body) (atomic : body.Atomic)
    (scalar : value.Scalar) (fit : value.fits program type = true)
    (encoded : Encode.value program registry type value = place body) :
    YieldsValue program lent base registry type value world := by
  rw [YieldsValue, encoded, ← Multiset.coe_nil, ← atomic.references]
  refine (yields_keyless body atomic.data atomic.keyless).weaken
    (fun _ ref after _ _ reading => ?_) fun _ => id
  rw [← reading] at atomic
  exact ⟨.of_scalar scalar fit, iff_of_true atomic.hashable (.scalar scalar)⟩

/-- One of the first objects for a scalar. -/
theorem yields_first (serves : base.Serves program registry lent frame) {type : HostType}
    {value : HostValue} {ref : Ref} (scalar : value.Scalar) (fit : value.fits program type = true)
    (first : ref.place < Heap.initial.size)
    (hashable : ∀ heap : Heap, heap.Rooted → heap.Hashable ref)
    (encoded : Encode.value program registry type value = retain ref) :
    YieldsValue program lent base registry type value world := by
  rw [YieldsValue, encoded]
  refine .assuming fun held begun => ?_
  have found := serves.first ref first
  refine (yields_retain (serves.used begun found) found).weaken
    (fun _ given after begun' _ same => ?_) fun _ => id
  subst same
  have rooted := (begun'.sound serves.sound).grounded.rooted
  exact ⟨.of_scalar scalar fit, iff_of_true (hashable _ rooted) (.scalar scalar)⟩

theorem hashable_none {heap : Heap} (rooted : heap.Rooted) : heap.Hashable .none :=
  Heap.hashable_of_single (by rw [rooted.none]; exact id) (by rw [rooted.none]; nofun)

theorem hashable_ofBool {heap : Heap} (rooted : heap.Rooted) (value : Bool) :
    heap.Hashable (.ofBool value) :=
  Heap.hashable_of_single (by rw [rooted.bool]; exact id) (by rw [rooted.bool]; nofun)

/-- An object that is passed through. -/
theorem yields_object (serves : base.Serves program registry lent frame) {type : HostType}
    {value : HostValue} {ref : Ref} (found : lent ref)
    (encoded : Encode.value program registry type value = retain ref)
    (fine : Fine program base.heap (base.registers registry) (type, value))
    (hashes : base.heap.Hashable ref ↔ Hashes base.heap (base.registers registry) type value) :
    YieldsValue program lent base registry type value world := by
  rw [YieldsValue, encoded]
  refine .assuming fun held begun => ?_
  refine (yields_retain (serves.used begun found) found).weaken
    (fun _ given after begun' _ same => ?_) fun _ => id
  subst same
  refine ⟨fine, Iff.trans ?_ hashes⟩
  have start : Builds program lent base 0 base 0 := .refl base 0
  exact serves.hashable_iff start begun' (serves.old given found) (by simp [World.owed])

variable (program lent base registry) in
/-- Objects for the values of a list are built, behind those that were built before. -/
abbrev YieldsAll (action : Op (List Ref)) (done : List Ref) (parts : List (HostType × HostValue))
    (world : World) : Prop :=
  Yields program lent base action world done (fun refs => refs)
    (fun refs after => ∃ made, refs = done.reverse ++ made ∧
      (∀ part ∈ parts, Fine program base.heap (base.registers registry) part) ∧
      ((∀ ref ∈ made, after.heap.Hashable ref) ↔
        ∀ part ∈ parts, Hashes base.heap (base.registers registry) part.1 part.2))
    fun fault => ∃ part ∈ parts, Blames program base.heap (base.registers registry) part fault

theorem YieldsAll.nil (done : List Ref) :
    YieldsAll program lent base registry (return done.reverse) done [] world :=
  .of_ok rfl (by rw [Multiset.coe_reverse]; exact .refl _ _) ⟨[], by simp⟩

/-- One object more is built before the others. -/
theorem YieldsAll.cons (serves : base.Serves program registry lent frame) {done : List Ref}
    {type : HostType} {value : HostValue} {parts : List (HostType × HostValue)}
    {next : Ref → Op (List Ref)}
    (first : YieldsValue program lent base registry type value world)
    (rest : ∀ ref after, YieldsAll program lent base registry (next ref) (ref :: done) parts after) :
    YieldsAll program lent base registry
      ((Encode.value program registry type value).undoing (·.releaseAll done.reverse) >>= next)
      done ((type, value) :: parts) world := by
  have held := first.undoing fun after => .releaseAll_last after done.reverse
  rw [zero_add, Multiset.coe_reverse] at held
  refine (held.blaming fun fault blames => ⟨(type, value), by simp, blames⟩).bind
    fun ref middle _ known => ?_
  obtain ⟨fine, hashes⟩ := known
  refine .assuming fun others begun => ?_
  have later := rest ref middle
  rw [YieldsAll, Tally.coe_cons] at later
  refine later.weaken ?_ fun fault ⟨part, member, blames⟩ => ⟨part, by simp [member], blames⟩
  rintro held' refs after begun' builds ⟨made, rfl, fines, each⟩
  refine ⟨ref :: made, by simp, List.forall_mem_cons.mpr ⟨fine, fines⟩, ?_⟩
  have used : ref.place < middle.heap.size := (begun.sound serves.sound).used_of_held (by simp)
  have framed := builds.frame others
  rw [add_comm _ others, add_comm _ others] at framed
  have kept : after.heap.Hashable ref ↔ middle.heap.Hashable ref :=
    serves.hashable_iff begun framed used (by simp [World.owed])
  rw [List.forall_mem_cons, List.forall_mem_cons, kept, hashes, each]

variable (program lent base registry) in
/-- Keys and other objects are built in pairs, behind those that were built before. -/
abbrev YieldsPairs (action : Op (List (Ref × Ref))) (done : List (Ref × Ref))
    (parts keys : List (HostType × HostValue)) (world : World) : Prop :=
  Yields program lent base action world (pairReferences done) (fun pairs => pairReferences pairs)
    (fun pairs after => ∃ made, pairs = done.reverse ++ made ∧
      (∀ part ∈ parts, Fine program base.heap (base.registers registry) part) ∧
      ((∀ pair ∈ made, after.heap.Hashable pair.1) ↔
        ∀ part ∈ keys, Hashes base.heap (base.registers registry) part.1 part.2))
    fun fault => ∃ part ∈ parts, Blames program base.heap (base.registers registry) part fault

theorem YieldsPairs.nil (done : List (Ref × Ref)) :
    YieldsPairs program lent base registry (return done.reverse) done [] [] world :=
  .of_ok rfl (by rw [coe_pairReferences_reverse]; exact .refl _ _) ⟨[], by simp⟩

/-- One pair more has been built before the others. -/
theorem YieldsPairs.after (serves : base.Serves program registry lent frame)
    {done : List (Ref × Ref)} {parts keys : List (HostType × HostValue)}
    {action : Op (List (Ref × Ref))} {key content : Ref}
    (rest : YieldsPairs program lent base registry action ((key, content) :: done) parts keys world)
    (parts' keys' : List (HostType × HostValue))
    (fine : ∀ part ∈ parts', Fine program base.heap (base.registers registry) part)
    (hashes : world.heap.Hashable key ↔
      ∀ part ∈ keys', Hashes base.heap (base.registers registry) part.1 part.2) :
    Yields program lent base action world ({key} + {content} + pairReferences done)
      (fun pairs => pairReferences pairs)
      (fun pairs after => ∃ made, pairs = done.reverse ++ made ∧
        (∀ part ∈ parts' ++ parts, Fine program base.heap (base.registers registry) part) ∧
        ((∀ pair ∈ made, after.heap.Hashable pair.1) ↔
          ∀ part ∈ keys' ++ keys, Hashes base.heap (base.registers registry) part.1 part.2))
      fun fault => ∃ part ∈ parts' ++ parts,
        Blames program base.heap (base.registers registry) part fault := by
  refine .assuming fun others begun => ?_
  rw [YieldsPairs, coe_pairReferences_cons] at rest
  refine rest.weaken ?_ fun fault ⟨part, member, blames⟩ => ⟨part, by simp [member], blames⟩
  rintro held' pairs after begun' builds ⟨made, rfl, fines, each⟩
  refine ⟨(key, content) :: made, by simp, List.forall_mem_append.mpr ⟨fine, fines⟩, ?_⟩
  have used : key.place < world.heap.size := (begun.sound serves.sound).used_of_held (by simp)
  have framed := builds.frame others
  rw [add_comm _ others, add_comm _ others] at framed
  have kept : after.heap.Hashable key ↔ world.heap.Hashable key :=
    serves.hashable_iff begun framed used (by simp [World.owed, pairReferences])
  rw [List.forall_mem_cons, List.forall_mem_append, kept, hashes, each]

/-! ## From the parts to the whole -/

/-- What encoding comes to see of the entries of a map. -/
def entryParts (key value : HostType) (entries : List (HostValue × HostValue)) :
    List (HostType × HostValue) :=
  entries.flatMap fun entry => [(key, entry.1), (value, entry.2)]

/-- What encoding comes to see of the fields of a struct. -/
def fieldParts (fields : List FieldDecl) (values : List HostValue) :
    List (HostType × HostValue) :=
  ((fields.zip values).filter fun entry => entry.1.exported).map fun entry =>
    (entry.1.type, entry.2)

/-- What has no projection is no object for a value that is to have one. -/
theorem hashable_iff_of_unkeyed {heap : Heap} {registered : StructId → Prop} {type : HostType}
    {value : HostValue} {ref : Ref} (unkeyed : (world.heap.body ref).Unkeyed)
    (refused : ¬Hashes heap registered type value) :
    world.heap.Hashable ref ↔ Hashes heap registered type value :=
  iff_of_false (Heap.not_hashable_of_unkeyed unkeyed) refused

/-- A list of the objects for the items. -/
theorem yields_list {element : HostType} {values : List HostValue}
    (items : YieldsAll program lent base registry (Encode.elements program registry element [] values)
      [] (values.map fun value => (element, value)) world) :
    YieldsValue program lent base registry (.seq element) (.seq values) world := by
  rw [YieldsValue, Encode.value]
  refine (items.blaming ?_).bind ?_
  · rintro fault ⟨part, member, blames⟩
    obtain ⟨value, inside, rfl⟩ := List.mem_map.mp member
    exact blames.outside (.element inside)
  · rintro refs after _ ⟨made, _, fines, _⟩
    refine (yields_keyless (.list refs) trivial trivial).weaken
      (fun _ ref after _ _ reading => ⟨?_, ?_⟩) fun _ => id
    · refine .of_parts ⟨nofun, nofun⟩ fun part inside => ?_
      cases inside with
      | element member => exact fines _ (List.mem_map_of_mem member)
    · exact hashable_iff_of_unkeyed (by rw [reading]; trivial) nofun

/-- A dict of the objects for the keys and values, if all the keys have a projection. -/
theorem yields_dict (serves : base.Serves program registry lent frame) {order : MapOrder}
    {key value : HostType} {entries : List (HostValue × HostValue)}
    (pairs : YieldsPairs program lent base registry
      (Encode.entries program registry key value [] entries) [] (entryParts key value entries)
      (entries.map fun entry => (key, entry.1)) world) :
    YieldsValue program lent base registry (.map order key value) (.map entries) world := by
  rw [YieldsValue, Encode.value]
  refine (pairs.blaming ?_).bind ?_
  · rintro fault ⟨part, member, blames⟩
    obtain ⟨entry, inside, here⟩ := List.mem_flatMap.mp member
    rcases List.mem_pair.mp here with rfl | rfl
    · exact blames.outside (.key inside)
    · exact blames.outside (.content inside)
  · rintro refs after _ ⟨made, rfl, fines, each⟩
    rw [List.forall_mem_map] at each
    refine (yields_placeDict serves.toFoundation fun pair member exception stopped => ?_).weaken
      ?_ fun _ => id
    · have refused : ¬∀ entry ∈ entries, Hashes base.heap (base.registers registry) key entry.1 := by
        intro hashes
        obtain ⟨projection, hashed⟩ := each.mpr hashes pair member
        rw [stopped] at hashed
        cases hashed
      push Not at refused
      obtain ⟨entry, inside, refused⟩ := refused
      obtain ⟨name, rfl⟩ := Heap.fails_keyWithin _ _ _ _ stopped
      exact .unhashable .refl inside refused
    · rintro _ ref final _ _ ⟨⟨table, reading⟩, hashable⟩
      refine ⟨.of_parts ⟨nofun, ?_⟩ fun part inside => ?_, ?_⟩
      · rintro _ _ _ _ ⟨⟩
        exact each.mp hashable
      · cases inside with
        | key member => exact fines _ (List.mem_flatMap.mpr ⟨_, member, by simp⟩)
        | content member => exact fines _ (List.mem_flatMap.mpr ⟨_, member, by simp⟩)
      · exact hashable_iff_of_unkeyed (by rw [reading]; trivial) nofun

/-- A wrapper around a copy of a struct that is registered. -/
theorem yields_wrapper (serves : base.Serves program registry lent frame)
    (begun : Builds program lent base 0 world held) {host : StructId} {values : List HostValue}
    {shape : Ref} (handle : (base.registry registry).handle? host = some shape)
    (fit : (HostValue.struct values).fits program (.struct host) = true)
    (found : ∀ ref ∈ (HostValue.struct values).references, lent ref) :
    Yields program lent base (wrapCopy registry shape (.struct values)) world 0 (fun ref => {ref})
      (fun ref after =>
        Fine program base.heap (base.registers registry) (.struct host, .struct values) ∧
        (after.heap.Hashable ref ↔
          Hashes base.heap (base.registers registry) (.struct host) (.struct values)))
      (Blames program base.heap (base.registers registry) (.struct host, .struct values)) := by
  have registered : base.registers registry host := by rw [World.registers, handle]; rfl
  have entered := Registry.mem_types_of_handle? ((serves.handle? begun host).trans handle)
  obtain ⟨bridged, typed, same, rfl⟩ :=
    (begun.sound serves.sound).wired.handle registry host shape entered
  refine (yields_wrapCopy typed same fit (fun ref member => serves.used begun (found ref member))
    found (serves.handles _ shape handle)).weaken (fun _ ref after _ _ reading => ⟨?_, ?_⟩)
    fun _ => id
  · refine .of_parts ⟨nofun, nofun⟩ fun part inside => ?_
    cases inside with
    | field plain => exact absurd registered plain
  · obtain ⟨cell, _, _, there, body, _⟩ := Heap.wrapper?_eq_some.mp reading
    rw [← Heap.body_eq there] at body
    exact iff_of_true (Heap.hashable_of_single (by rw [body]; exact id) (by rw [body]; nofun))
      (.wrapper registered)

/-- A dict of the objects for the exported fields of a struct that is not registered. -/
theorem yields_fieldDict (serves : base.Serves program registry lent frame) {host : StructId}
    {values : List HostValue} (handle : (base.registry registry).handle? host = none)
    (pairs : YieldsPairs program lent base registry
      (Encode.fields program registry (program.struct host).fields [] values) []
      (fieldParts (program.struct host).fields values) [] world) :
    Yields program lent base
      (Encode.fields program registry (program.struct host).fields [] values >>= placeDict) world 0
      (fun ref => {ref})
      (fun ref after =>
        Fine program base.heap (base.registers registry) (.struct host, .struct values) ∧
        (after.heap.Hashable ref ↔
          Hashes base.heap (base.registers registry) (.struct host) (.struct values)))
      (Blames program base.heap (base.registers registry) (.struct host, .struct values)) := by
  have unregistered : ¬base.registers registry host := by
    rw [World.registers, handle]
    exact Bool.false_ne_true
  refine (pairs.blaming ?_).bind ?_
  · rintro fault ⟨part, member, blames⟩
    obtain ⟨entry, inside, rfl⟩ := List.mem_map.mp member
    obtain ⟨among, exported⟩ := List.mem_filter.mp inside
    exact blames.outside (.field unregistered among exported)
  · rintro refs after _ ⟨made, rfl, fines, each⟩
    refine (yields_placeDict serves.toFoundation fun pair member exception stopped => ?_).weaken
      ?_ fun _ => id
    · obtain ⟨projection, hashed⟩ := each.mpr (by simp) pair member
      rw [stopped] at hashed
      cases hashed
    · rintro _ ref final _ _ ⟨⟨table, reading⟩, _⟩
      refine ⟨.of_parts ⟨nofun, nofun⟩ fun part inside => ?_, ?_⟩
      · cases inside with
        | field plain member exported =>
          exact fines _ (List.mem_map_of_mem (List.mem_filter.mpr ⟨member, exported⟩))
      · refine hashable_iff_of_unkeyed (by rw [reading]; trivial) fun hashes => ?_
        cases hashes with
        | scalar scalar => exact scalar
        | wrapper registered => exact unregistered registered

/-- The object for what a box holds. -/
theorem yields_boxed {element : HostType} {value : HostValue}
    (inner : YieldsValue program lent base registry element value world) :
    YieldsValue program lent base registry (.boxed element) (.boxed value) world := by
  rw [YieldsValue, Encode.value]
  refine inner.weaken (fun _ ref after _ _ known => ⟨?_, ?_⟩) fun fault blames =>
    blames.outside .boxed
  · refine .of_parts ⟨nofun, nofun⟩ fun part inside => ?_
    cases inside
    exact known.1
  · refine known.2.trans ⟨.boxed, fun hashes => ?_⟩
    cases hashes with
    | scalar scalar => exact scalar.elim
    | boxed inner => exact inner

/-- The object for an optional value that is present. -/
theorem yields_present {element : HostType} {value : HostValue}
    (inner : YieldsValue program lent base registry element value world) :
    YieldsValue program lent base registry (.optional element) (.present value) world := by
  rw [YieldsValue, Encode.value]
  refine inner.weaken (fun _ ref after _ _ known => ⟨?_, ?_⟩) fun fault blames =>
    blames.outside .present
  · refine .of_parts ⟨nofun, nofun⟩ fun part inside => ?_
    cases inside
    exact known.1
  · refine known.2.trans ⟨.present, fun hashes => ?_⟩
    cases hashes with
    | scalar scalar => exact scalar.elim
    | present inner => exact inner

/-- A tuple of the objects for the items. -/
theorem yields_tuple (serves : base.Serves program registry lent frame) {types : List HostType}
    {values : List HostValue}
    (items : YieldsAll program lent base registry (Encode.components program registry types [] values)
      [] (types.zip values) world) :
    YieldsValue program lent base registry (.tuple types) (.tuple values) world := by
  rw [YieldsValue, Encode.value]
  refine (items.blaming ?_).bind ?_
  · rintro fault ⟨part, member, blames⟩
    exact blames.outside (.component member)
  · rintro refs middle _ ⟨made, rfl, fines, each⟩
    refine .assuming fun held begun => ?_
    refine (yields_keyless (.tuple _) trivial trivial).weaken
      (fun left ref after begun' builds reading => ⟨?_, ?_⟩) fun _ => id
    · refine .of_parts ⟨nofun, nofun⟩ fun part inside => ?_
      cases inside with
      | component member => exact fines _ member
    · -- The items are owned by the tuple now, and go on having the projections that they had.
      obtain ⟨cell, there, body⟩ := Heap.exists_cell_of_body reading nofun
      have framed := builds.frame held
      rw [add_comm _ held, add_comm _ held] at framed
      have kept : ∀ item ∈ refs, (after.heap.Hashable item ↔ middle.heap.Hashable item) := by
        intro item member
        refine serves.hashable_iff begun framed
          ((begun.sound serves.sound).used_of_held (by simp [member])) ?_
        have owned : item ∈ _ := Heap.mem_owned there (by simp [body, Body.references, member])
        simp [World.owed, owned]
      rw [Heap.hashable_tuple_iff (serves.layered_of_builds begun') reading]
      constructor
      · exact fun hashable => .tuple (each.mp fun item member =>
          (kept item member).mp (hashable item member))
      · intro hashes item member
        cases hashes with
        | scalar scalar => exact scalar.elim
        | tuple hashes => exact (kept item member).mpr (each.mpr hashes item member)

/-! ## All values -/

mutual

/-- The object for a value that is one of its type. -/
theorem yields_value (serves : base.Serves program registry lent frame) : ∀ (value : HostValue)
    {type : HostType} {world : World}, value.fits program type = true →
    (∀ ref ∈ value.references, lent ref) → YieldsValue program lent base registry type value world
  | .unit, _, _, fit, _ => by
    obtain rfl := HostValue.shapes_of_fits fit
    exact yields_first serves trivial fit (by decide) (fun _ => hashable_none) (by rw [Encode.value])
  | .bool value, _, _, fit, _ => by
    obtain rfl := HostValue.shapes_of_fits fit
    exact yields_first serves trivial fit (by cases value <;> decide)
      (fun _ rooted => hashable_ofBool rooted value) (by rw [Encode.value])
  | .int value, _, _, fit, _ => by
    obtain ⟨kind, rfl, _⟩ := HostValue.shapes_of_fits fit
    exact yields_atom (.int value) trivial trivial fit (by rw [Encode.value])
  | .single value, _, _, fit, _ => by
    obtain rfl := HostValue.shapes_of_fits fit
    exact yields_atom (.float value.toBinary64) trivial trivial fit (by rw [Encode.value])
  | .double value, _, _, fit, _ => by
    obtain rfl := HostValue.shapes_of_fits fit
    exact yields_atom (.float value) trivial trivial fit (by rw [Encode.value])
  | .complexSingle real imaginary, _, _, fit, _ => by
    obtain rfl := HostValue.shapes_of_fits fit
    exact yields_atom (.complex real.toBinary64 imaginary.toBinary64) trivial trivial fit
      (by rw [Encode.value])
  | .complexDouble real imaginary, _, _, fit, _ => by
    obtain rfl := HostValue.shapes_of_fits fit
    exact yields_atom (.complex real imaginary) trivial trivial fit (by rw [Encode.value])
  | .text value, _, _, fit, _ => by
    obtain rfl := HostValue.shapes_of_fits fit
    exact yields_atom (.text value) trivial trivial fit (by rw [Encode.value])
  | .bytes value, _, _, fit, _ => by
    obtain rfl := HostValue.shapes_of_fits fit
    exact yields_atom (.bytes value) trivial trivial fit (by rw [Encode.value])
  | .seq values, _, _, fit, found => by
    obtain ⟨element, rfl, fit⟩ := HostValue.shapes_of_fits fit
    exact yields_list (yields_elements serves values [] fit found)
  | .map entries, _, _, fit, found => by
    obtain ⟨order, key, value, rfl, fit⟩ := HostValue.shapes_of_fits fit
    exact yields_dict serves (yields_entries serves entries [] fit found)
  | .struct values, _, world, fit, found => by
    obtain ⟨host, rfl, fit⟩ := HostValue.shapes_of_fits fit
    rw [YieldsValue, Encode.value]
    refine .assuming fun held begun => .look_bind (run_handle? registry host world) ?_
    rw [add_zero] at begun
    rw [serves.handle? begun]
    cases handle : (base.registry registry).handle? host with
    | some shape => exact yields_wrapper serves begun handle fit found
    | none => exact yields_fieldDict serves handle (yields_fields serves values [] fit found)
  | .boxed value, _, _, fit, found => by
    obtain ⟨element, rfl, fit⟩ := HostValue.shapes_of_fits fit
    exact yields_boxed (yields_value serves value fit found)
  | .absent, _, _, fit, _ => by
    obtain ⟨element, rfl⟩ := HostValue.shapes_of_fits fit
    exact yields_first serves trivial fit (by decide) (fun _ => hashable_none) (by rw [Encode.value])
  | .present value, _, _, fit, found => by
    obtain ⟨element, rfl, fit⟩ := HostValue.shapes_of_fits fit
    exact yields_present (yields_value serves value fit found)
  | .tuple values, _, _, fit, found => by
    obtain ⟨types, rfl, fit⟩ := HostValue.shapes_of_fits fit
    exact yields_tuple serves (yields_components serves values [] fit found)
  | .object ref, _, _, fit, found => by
    obtain rfl := HostValue.shapes_of_fits fit
    refine yields_object serves (found ref (by simp [HostValue.references])) (by rw [Encode.value])
      ?_ ⟨.object, fun hashes => ?_⟩
    · refine .of_parts ⟨nofun, nofun⟩ fun part inside => ?_
      cases inside
    · cases hashes with
      | scalar scalar => exact scalar.elim
      | object hashable => exact hashable
  | .keywords none, _, _, fit, _ => by
    obtain rfl := HostValue.shapes_of_fits fit
    rw [YieldsValue, Encode.value]
    refine (yields_emptyDict).weaken (fun _ ref after _ _ reading => ⟨?_, ?_⟩) fun _ => id
    · refine .of_parts ⟨nofun, nofun⟩ fun part inside => ?_
      cases inside
    · exact hashable_iff_of_unkeyed (by rw [reading]; trivial) nofun
  | .keywords (some ref), _, _, fit, found => by
    obtain rfl := HostValue.shapes_of_fits fit
    refine yields_object serves (found ref (by simp [HostValue.references])) (by rw [Encode.value])
      ?_ ⟨.keywords, fun hashes => ?_⟩
    · refine .of_parts ⟨nofun, nofun⟩ fun part inside => ?_
      cases inside
    · cases hashes with
      | scalar scalar => exact scalar.elim
      | keywords hashable => exact hashable
  | .sealed word, _, _, fit, _ => by
    obtain ⟨id, rfl⟩ := HostValue.shapes_of_fits fit
    rw [YieldsValue, Encode.value]
    exact .of_error (run_panic _ _) (.refl _ _) (.sealed .refl)

/-- The objects for the items of a sequence. -/
theorem yields_elements (serves : base.Serves program registry lent frame) :
    ∀ (values : List HostValue) (done : List Ref) {element : HostType} {world : World},
    HostValue.fitsEach program element values = true →
    (∀ ref ∈ HostValue.referencesAll values, lent ref) →
      YieldsAll program lent base registry (Encode.elements program registry element done values)
        done (values.map fun value => (element, value)) world
  | [], done, _, _, _, _ => .nil done
  | head :: tail, done, element, _, fit, found => by
    simp only [HostValue.fitsEach, Bool.and_eq_true] at fit
    simp only [HostValue.referencesAll, List.mem_append] at found
    rw [Encode.elements]
    exact .cons serves (yields_value serves head fit.1 fun ref member => found ref (.inl member))
      fun ref after => yields_elements serves tail (ref :: done) fit.2
        fun ref member => found ref (.inr member)

/-- The objects for the items of a tuple. -/
theorem yields_components (serves : base.Serves program registry lent frame) :
    ∀ (values : List HostValue) (done : List Ref) {types : List HostType} {world : World},
    HostValue.fitsAll program types values = true →
    (∀ ref ∈ HostValue.referencesAll values, lent ref) →
      YieldsAll program lent base registry (Encode.components program registry types done values)
        done (types.zip values) world
  | [], done, [], _, _, _ => .nil done
  | [], done, type :: types, _, fit, _ => by cases fit
  | head :: tail, done, [], _, fit, _ => by cases fit
  | head :: tail, done, type :: types, _, fit, found => by
    simp only [HostValue.fitsAll, Bool.and_eq_true] at fit
    simp only [HostValue.referencesAll, List.mem_append] at found
    rw [Encode.components]
    exact .cons serves (yields_value serves head fit.1 fun ref member => found ref (.inl member))
      fun ref after => yields_components serves tail (ref :: done) fit.2
        fun ref member => found ref (.inr member)

/-- The names and objects for the exported fields of a struct. -/
theorem yields_fields (serves : base.Serves program registry lent frame) :
    ∀ (values : List HostValue) (done : List (Ref × Ref)) {fields : List FieldDecl} {world : World},
    HostValue.fitsAll program (fields.map (·.type)) values = true →
    (∀ ref ∈ HostValue.referencesAll values, lent ref) →
      YieldsPairs program lent base registry (Encode.fields program registry fields done values) done
        (fieldParts fields values) [] world
  | [], done, [], _, _, _ => .nil done
  | [], done, field :: rest, _, fit, _ => by cases fit
  | head :: tail, done, [], _, fit, _ => by cases fit
  | head :: tail, done, field :: rest, world, fit, found => by
    simp only [List.map_cons, HostValue.fitsAll, Bool.and_eq_true] at fit
    simp only [HostValue.referencesAll, List.mem_append] at found
    rw [Encode.fields]
    split
    · rename_i exported
      have parts : fieldParts (field :: rest) (head :: tail) =
          (field.type, head) :: fieldParts rest tail := by
        simp [fieldParts, exported]
      rw [parts]
      have first : YieldsValue program lent base registry field.type head world :=
        yields_value serves head fit.1 fun ref member => found ref (.inl member)
      refine ((first.beside fun after => .releasePairs after done).blaming fun fault blames =>
        ⟨(field.type, head), by simp, blames⟩).bind ?_
      rintro ref middle _ ⟨fine, _⟩
      refine (yields_text (Name.snake field.name) _).bind fun name last _ reading => ?_
      have others : YieldsPairs program lent base registry _ ((name, ref) :: done)
          (fieldParts rest tail) [] last :=
        yields_fields serves tail ((name, ref) :: done) fit.2
          fun ref member => found ref (.inr member)
      rw [← add_assoc]
      have hashable : last.heap.Hashable name := ⟨_, Heap.key_of_text reading⟩
      exact others.after serves [(field.type, head)] [] (by simpa using fine) (by simp [hashable])
    · rename_i hidden
      have parts : fieldParts (field :: rest) (head :: tail) = fieldParts rest tail := by
        simp [fieldParts, hidden]
      rw [parts]
      exact yields_fields serves tail done fit.2 fun ref member => found ref (.inr member)

/-- The objects for the keys and values of a map. -/
theorem yields_entries (serves : base.Serves program registry lent frame) :
    ∀ (entries : List (HostValue × HostValue)) (done : List (Ref × Ref)) {key value : HostType}
      {world : World}, HostValue.fitsEntries program key value entries = true →
    (∀ ref ∈ HostValue.referencesEntries entries, lent ref) →
      YieldsPairs program lent base registry
        (Encode.entries program registry key value done entries) done
        (entryParts key value entries) (entries.map fun entry => (key, entry.1)) world
  | [], done, _, _, _, _, _ => .nil done
  | (key, content) :: tail, done, keyType, valueType, world, fit, found => by
    simp only [HostValue.fitsEntries, Bool.and_eq_true] at fit
    simp only [HostValue.referencesEntries, List.mem_append] at found
    rw [Encode.entries]
    have first : YieldsValue program lent base registry keyType key world :=
      yields_value serves key fit.1.1 fun ref member => found ref (.inl (.inl member))
    refine ((first.beside fun after => .releasePairs after done).blaming fun fault blames =>
      ⟨(keyType, key), by simp [entryParts], blames⟩).bind ?_
    rintro keyRef middle _ ⟨fineKey, hashesKey⟩
    have second : YieldsValue program lent base registry valueType content middle :=
      yields_value serves content fit.1.2 fun ref member => found ref (.inl (.inr member))
    have undo : ∀ after, Builds program lent after ({keyRef} + pairReferences done)
        ((after.release keyRef).releaseAll (pairReferences done.reverse)) 0 := fun after => by
      rw [add_comm]
      exact (Builds.releaseAll after [keyRef] _).trans (.releasePairs _ done)
    refine .assuming fun held begun => ((second.beside undo).blaming fun fault blames =>
      ⟨(valueType, content), by simp [entryParts], blames⟩).bind ?_
    rintro contentRef last builds ⟨fineContent, _⟩
    have framed := builds.frame held
    rw [add_comm _ held, add_comm _ held] at framed
    have kept : last.heap.Hashable keyRef ↔ middle.heap.Hashable keyRef :=
      serves.hashable_iff begun framed ((begun.sound serves.sound).used_of_held (by simp))
        (by simp [World.owed])
    have rest : YieldsPairs program lent base registry _ ((keyRef, contentRef) :: done)
        (entryParts keyType valueType tail) (tail.map fun entry => (keyType, entry.1)) last :=
      yields_entries serves tail ((keyRef, contentRef) :: done) fit.2
        fun ref member => found ref (.inr member)
    rw [← add_assoc, add_comm ({contentRef} : Multiset Ref)]
    refine rest.after serves [(keyType, key), (valueType, content)] [(keyType, key)] ?_ ?_
    · simp [fineKey, fineContent]
    · simp [kept, hashesKey]

end

end Encode

end HostBridge
