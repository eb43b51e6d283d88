import HostBridge.Bridge.Encode
import HostBridge.Proofs.Ownership.Adoption

/-!
# Contract of encoding

The object made for a host value is handed to the caller with one reference, and
a failure on the way gives up all that was made before it.  Items that are made
one after the other are held until the object that comes to own them is made.
-/

namespace HostBridge

variable {program : Program} {touch : Permission} {world : World}

namespace Op

/-- References of keys and values, in pairs. -/
def pairReferences (pairs : List (Ref × Ref)) : List Ref :=
  pairs.flatMap fun (key, value) => [key, value]

theorem coe_pairReferences_cons (key value : Ref) (pairs : List (Ref × Ref)) :
    (pairReferences ((key, value) :: pairs) : Multiset Ref) =
      {key} + {value} + pairReferences pairs := by
  rw [pairReferences, List.flatMap_cons, ← Multiset.coe_add]
  rfl

theorem coe_pairReferences_reverse (pairs : List (Ref × Ref)) :
    (pairReferences pairs.reverse : Multiset Ref) = pairReferences pairs :=
  Multiset.coe_eq_coe.mpr (pairs.reverse_perm.flatMap_right _)

theorem runs_placeDict (pairs : List (Ref × Ref)) :
    Runs program touch (placeDict pairs) world (pairReferences pairs) (fun dict => {dict})
      fun _ _ => True := by
  refine .assuming fun frame sound => ?_
  have made : Runs program touch (createDict pairs) world 0 (fun dict => {dict}) fun _ _ => True :=
    runs_createDict fun inner member => sound.used_of_held (by simp [pairReferences, member])
  have run : Runs program touch (placeDict pairs) world (0 + pairReferences pairs)
      (fun dict => {dict}) fun _ _ => True :=
    made.always (fun after => path_releaseAll after (pairReferences pairs))
      fun _ _ _ _ _ => trivial
  rwa [zero_add] at run

/-- One more reference to an object that exists from the start. -/
theorem runs_retainFirst {ref : Ref} (first : ref.place < Heap.initial.size) :
    Runs program touch (retain ref) world 0 (fun ref => {ref}) fun _ _ => True :=
  .assuming fun _ sound => (runs_retain (sound.used_of_first first)).weaken fun _ _ _ _ => trivial

/-- A new object that owns nothing. -/
theorem path_placeScalar {body : Body} (plain : body.Plain program) (alone : body.references = [])
    (held : Multiset Ref) :
    Path program touch world held (world.place body).2 (held + {world.heap.next}) := by
  have made : Path program touch world (held + body.references) (world.place body).2
      (held + {world.heap.next}) := .place plain
  rwa [alone, Multiset.coe_nil, add_zero] at made

theorem runs_placeScalar {body : Body} (plain : body.Plain program) (alone : body.references = []) :
    Runs program touch (place body) world 0 (fun ref => {ref}) fun _ _ => True := by
  have made : Path program touch world 0 (world.place body).2 (0 + {world.heap.next}) :=
    path_placeScalar plain alone 0
  rw [zero_add] at made
  exact .of_ok (run_place world body) made trivial

end Op

namespace Encode

open Op

variable {registry : RegistryId}

mutual

/-- The object for a value that is one of its type. -/
theorem runs_value : ∀ (type : HostType) (value : HostValue) {world : World},
    value.fits program type = true → (∀ ref ∈ value.references, ref.place < world.heap.size) →
      Runs program touch (Encode.value program registry type value) world 0 (fun ref => {ref})
        fun _ _ => True
  | type, .unit, world, fit, _ => by
    obtain rfl := HostValue.shapes_of_fits fit
    exact runs_retainFirst (by decide)
  | type, .bool value, world, fit, _ => by
    obtain rfl := HostValue.shapes_of_fits fit
    exact runs_retainFirst (by cases value <;> decide)
  | type, .int value, world, fit, _ => by
    obtain ⟨kind, rfl, _⟩ := HostValue.shapes_of_fits fit
    exact runs_placeScalar trivial rfl
  | type, .single _, world, fit, _ | type, .double _, world, fit, _
  | type, .complexSingle _ _, world, fit, _ | type, .complexDouble _ _, world, fit, _
  | type, .text _, world, fit, _ | type, .bytes _, world, fit, _ => by
    obtain rfl := HostValue.shapes_of_fits fit
    exact runs_placeScalar trivial rfl
  | type, .seq values, world, fit, used => by
    obtain ⟨element, rfl, fit⟩ := HostValue.shapes_of_fits fit
    refine (runs_elements element values [] fit used).bind fun items _ _ _ => ?_
    exact runs_place trivial
  | type, .map values, world, fit, used => by
    obtain ⟨order, key, value, rfl, fit⟩ := HostValue.shapes_of_fits fit
    exact (runs_entries key value values [] fit used).bind fun pairs _ _ _ => runs_placeDict pairs
  | type, .struct values, world, fit, used => by
    obtain ⟨id, rfl, parts⟩ := HostValue.shapes_of_fits fit
    refine .assuming fun frame sound => .look_bind rfl ?_
    cases handle : (world.registry registry).handle? id with
    | none =>
      exact (runs_fields _ values [] parts used).bind fun pairs _ _ _ => runs_placeDict pairs
    | some type =>
      obtain ⟨bridged, shape, same, host⟩ :=
        sound.wired.handle registry id type (Registry.mem_types_of_handle? handle)
      refine (makes_wrapCopy shape same (by rw [host]; exact fit) used).runs.weaken
        fun _ _ _ _ => trivial
  | type, .boxed value, world, fit, used | type, .present value, world, fit, used => by
    obtain ⟨element, rfl, fit⟩ := HostValue.shapes_of_fits fit
    exact runs_value element value fit used
  | type, .absent, world, fit, _ => by
    obtain ⟨element, rfl⟩ := HostValue.shapes_of_fits fit
    exact runs_retainFirst (by decide)
  | type, .tuple values, world, fit, used => by
    obtain ⟨types, rfl, fit⟩ := HostValue.shapes_of_fits fit
    refine (runs_components types values [] used fit).bind fun items _ _ _ => ?_
    exact runs_place trivial
  | type, .object ref, world, fit, used | type, .keywords (some ref), world, fit, used => by
    obtain rfl := HostValue.shapes_of_fits fit
    exact (runs_retain (used ref (by simp [HostValue.references]))).weaken fun _ _ _ _ => trivial
  | type, .keywords none, world, fit, _ => by
    obtain rfl := HostValue.shapes_of_fits fit
    exact runs_placeScalar trivial rfl
  | type, .sealed word, world, fit, _ => by
    obtain ⟨id, rfl⟩ := HostValue.shapes_of_fits fit
    exact .panic _

/-- The objects for the items of a sequence. -/
theorem runs_elements : ∀ (element : HostType) (values : List HostValue) (done : List Ref)
    {world : World}, HostValue.fitsEach program element values = true →
    (∀ ref ∈ HostValue.referencesAll values, ref.place < world.heap.size) →
      Runs program touch (Encode.elements program registry element done values) world done
        (fun refs => refs) fun _ _ => True
  | element, [], done, world, _, _ =>
    .pure (Multiset.coe_eq_coe.mpr done.reverse_perm.symm) trivial
  | element, head :: tail, done, world, fit, used => by
    simp only [HostValue.fitsEach, Bool.and_eq_true] at fit
    simp only [HostValue.referencesAll, List.mem_append] at used
    have first : Runs program touch (Encode.value program registry element head) world 0
        (fun ref => {ref}) fun _ _ => True :=
      runs_value element head fit.1 fun ref member => used ref (.inl member)
    have held := first.undoing fun after => path_releaseAll after done.reverse
    rw [zero_add, Multiset.coe_reverse] at held
    refine held.bind fun ref after leads _ => ?_
    have rest := runs_elements element tail (ref :: done) fit.2
      (leads.usedAll fun ref member => used ref (.inr member))
    rwa [Tally.coe_cons] at rest

/-- The objects for the items of a tuple. -/
theorem runs_components : ∀ (types : List HostType) (values : List HostValue) (done : List Ref)
    {world : World}, (∀ ref ∈ HostValue.referencesAll values, ref.place < world.heap.size) →
    HostValue.fitsAll program types values = true →
      Runs program touch (Encode.components program registry types done values) world done
        (fun refs => refs) fun _ _ => True
  | [], [], done, world, _, _ =>
    .pure (Multiset.coe_eq_coe.mpr done.reverse_perm.symm) trivial
  | [], head :: tail, done, world, _, fit => by cases fit
  | type :: types, [], done, world, _, fit => by cases fit
  | type :: types, head :: tail, done, world, used, fit => by
    simp only [HostValue.fitsAll, Bool.and_eq_true] at fit
    simp only [HostValue.referencesAll, List.mem_append] at used
    have first : Runs program touch (Encode.value program registry type head) world 0
        (fun ref => {ref}) fun _ _ => True :=
      runs_value type head fit.1 fun ref member => used ref (.inl member)
    have held := first.undoing fun after => path_releaseAll after done.reverse
    rw [zero_add, Multiset.coe_reverse] at held
    refine held.bind fun ref after leads _ => ?_
    have rest := runs_components types tail (ref :: done)
      (leads.usedAll fun ref member => used ref (.inr member)) fit.2
    rwa [Tally.coe_cons] at rest

/-- The objects for the keys and values of a map. -/
theorem runs_entries : ∀ (keyType valueType : HostType) (entries : List (HostValue × HostValue))
    (done : List (Ref × Ref)) {world : World},
    HostValue.fitsEntries program keyType valueType entries = true →
    (∀ ref ∈ HostValue.referencesEntries entries, ref.place < world.heap.size) →
      Runs program touch (Encode.entries program registry keyType valueType done entries) world
        (pairReferences done) (fun pairs => pairReferences pairs) fun _ _ => True
  | keyType, valueType, [], done, world, _, _ =>
    .pure (coe_pairReferences_reverse done).symm trivial
  | keyType, valueType, (key, content) :: tail, done, world, fit, used => by
    simp only [HostValue.fitsEntries, Bool.and_eq_true] at fit
    simp only [HostValue.referencesEntries, List.mem_append] at used
    have first : Runs program touch (Encode.value program registry keyType key) world 0
        (fun ref => {ref}) fun _ _ => True :=
      runs_value keyType key fit.1.1 fun ref member => used ref (.inl (.inl member))
    have undo : ∀ after, Path program touch after (pairReferences done)
        (after.releaseAll (pairReferences done.reverse)) 0 := by
      intro after
      rw [← coe_pairReferences_reverse]
      exact path_releaseAll after _
    have held := first.undoing undo
    rw [zero_add] at held
    refine held.bind fun keyRef middle leads _ => ?_
    have second : Runs program touch (Encode.value program registry valueType content) middle 0
        (fun ref => {ref}) fun _ _ => True :=
      runs_value valueType content fit.1.2
        (leads.usedAll fun ref member => used ref (.inl (.inr member)))
    have undo' : ∀ after, Path program touch after ({keyRef} + pairReferences done)
        ((after.release keyRef).releaseAll (pairReferences done.reverse)) 0 := by
      intro after
      have given : Path program touch after ({keyRef} + pairReferences done)
          (after.release keyRef) (0 + pairReferences done) :=
        (path_release after keyRef).frame _
      rw [zero_add] at given
      exact given.trans (undo _)
    have held' := second.undoing undo'
    rw [zero_add] at held'
    refine held'.bind fun contentRef after leads' _ => ?_
    have rest := runs_entries keyType valueType tail ((keyRef, contentRef) :: done) fit.2
      ((leads.trans leads').usedAll fun ref member => used ref (.inr member))
    rw [coe_pairReferences_cons] at rest
    rwa [← add_assoc, add_comm ({contentRef} : Multiset Ref)]

/-- The names and objects for the exported fields of a struct. -/
theorem runs_fields : ∀ (fields : List FieldDecl) (values : List HostValue)
    (done : List (Ref × Ref)) {world : World},
    HostValue.fitsAll program (fields.map (·.type)) values = true →
    (∀ ref ∈ HostValue.referencesAll values, ref.place < world.heap.size) →
      Runs program touch (Encode.fields program registry fields done values) world
        (pairReferences done) (fun pairs => pairReferences pairs) fun _ _ => True
  | [], [], done, world, _, _ => .pure (coe_pairReferences_reverse done).symm trivial
  | [], head :: tail, done, world, fit, _ => by cases fit
  | field :: rest, [], done, world, fit, _ => by cases fit
  | field :: rest, head :: tail, done, world, fit, used => by
    simp only [List.map_cons, HostValue.fitsAll, Bool.and_eq_true] at fit
    simp only [HostValue.referencesAll, List.mem_append] at used
    rw [Encode.fields]
    by_cases exported : field.exported = true
    · rw [if_pos exported]
      have first : Runs program touch (Encode.value program registry field.type head) world 0
          (fun ref => {ref}) fun _ _ => True :=
        runs_value field.type head fit.1 fun ref member => used ref (.inl member)
      have undo : ∀ after, Path program touch after (pairReferences done)
          (after.releaseAll (pairReferences done.reverse)) 0 := by
        intro after
        rw [← coe_pairReferences_reverse]
        exact path_releaseAll after _
      have held := first.undoing undo
      rw [zero_add] at held
      refine held.bind fun ref middle leads _ => ?_
      have plain : (Body.text (Name.snake field.name)).Plain program := trivial
      have named : Path program touch middle ({ref} + pairReferences done)
          (middle.place (.text (Name.snake field.name))).2
          ({ref} + pairReferences done + {middle.heap.next}) := path_placeScalar plain rfl _
      refine .path_bind (run_place middle _) named fun leads' => ?_
      have later := runs_fields rest tail ((middle.heap.next, ref) :: done) fit.2
        ((leads.trans leads').usedAll fun ref member => used ref (.inr member))
      rw [coe_pairReferences_cons, add_assoc] at later
      rwa [add_comm]
    · rw [if_neg exported]
      exact runs_fields rest tail done fit.2 fun ref member => used ref (.inr member)

end

end Encode

end HostBridge
