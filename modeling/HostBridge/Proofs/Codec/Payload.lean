import HostBridge.Proofs.Codec.Parts
import HostBridge.Proofs.Codec.RoundTrip
import HostBridge.Proofs.Codec.Shape
import HostBridge.Proofs.Dict.Overwriting

/-!
# Payloads of optionals

An optional is shown as its payload, or as the object that stands for nothing.
So a payload that is itself shown as nothing cannot be told from a payload that
is missing, and this module says which values these are: the unit value, an
absent optional, the object that stands for nothing, and boxes and payloads that
hold one of them.  Every other payload is told apart, and is there again when the
object is decoded, as far as values of its type come back at all.
-/

namespace HostBridge

open Op

variable {program : Program} {touch : Permission} {registry : RegistryId} {world after : World}
  {held : Multiset Ref}

/-- Whether a value is shown as the object that stands for nothing. -/
def HostValue.vacant (heap : Heap) : HostValue → Bool
  | .unit | .absent => true
  | .object ref | .keywords (some ref) => heap.isNone ref
  | .boxed value | .present value => value.vacant heap
  | _ => false

/-! ## What is made is something -/

theorem Heap.isNone_eq_false {heap : Heap} {ref : Ref} {body : Body}
    (reading : heap.body ref = body)
    (something : body ≠ .none) : heap.isNone ref = false := by
  rw [← Bool.not_eq_true, Heap.isNone_iff, reading]
  exact something

namespace Op

/-- Taking a reference leaves it open whether the object stands for nothing. -/
theorem runs_retain_shown {ref : Ref} (used : ref.place < world.heap.size) :
    Runs program touch (retain ref) world 0 (fun ref => {ref}) fun given after =>
      after.heap.isNone given = world.heap.isNone ref := by
  have path : Path program touch world 0 (world.retain ref) (0 + {ref}) := .retain used
  rw [zero_add] at path
  refine .of_ok rfl path ?_
  have same : (world.retain ref).heap.body ref = world.heap.body ref :=
    Heap.body_congr (world.body_cell?_retainAll [ref] ref)
  rw [Heap.isNone, Heap.isNone, same]

/-- A new object with contents. -/
theorem runs_place_shown (body : Body) (plain : body.Plain program) (something : body ≠ .none) :
    Runs program touch (place body) world body.references (fun ref => {ref}) fun ref after =>
      after.heap.isNone ref = false := by
  have path : Path program touch world (0 + body.references) (world.place body).2
      (0 + {(world.place body).1}) := .place plain
  rw [zero_add, zero_add] at path
  exact .of_ok rfl path
    (Heap.isNone_eq_false (Heap.body_eq (Heap.cell?_push_next world.heap body)) something)

/-- A new dict is something. -/
theorem runs_placeDict_shown (pairs : List (Ref × Ref)) :
    Runs program touch (placeDict pairs) world (pairReferences pairs) (fun dict => {dict})
      fun dict after => after.heap.isNone dict = false :=
  (runs_placeDict_table pairs).weaken fun _ _ _ ⟨_, _, body⟩ => Heap.isNone_eq_false body nofun

end Op

/-! ## What a value is shown as -/

namespace Encode

/-- The object for a value stands for nothing exactly if the value is vacant. -/
theorem runs_shown : ∀ (value : HostValue) {type : HostType} {world : World},
    value.fits program type = true → (∀ ref ∈ value.references, ref.place < world.heap.size) →
      Runs program touch (Encode.value program registry type value) world 0 (fun ref => {ref})
        fun ref after => after.heap.isNone ref = value.vacant world.heap
  | .unit, _, world, fit, _ => by
    obtain rfl := HostValue.shapes_of_fits fit
    refine .assuming fun _ sound => ?_
    refine (runs_retain_shown (sound.used_of_first (by decide))).weaken fun _ _ _ shown => ?_
    exact shown.trans (Heap.isNone_iff.mpr sound.grounded.rooted.none)
  | .absent, _, world, fit, _ => by
    obtain ⟨element, rfl⟩ := HostValue.shapes_of_fits fit
    refine .assuming fun _ sound => ?_
    refine (runs_retain_shown (sound.used_of_first (by decide))).weaken fun _ _ _ shown => ?_
    exact shown.trans (Heap.isNone_iff.mpr sound.grounded.rooted.none)
  | .bool value, _, world, fit, _ => by
    obtain rfl := HostValue.shapes_of_fits fit
    refine .assuming fun _ sound => ?_
    refine (runs_retain_shown (sound.used_of_first (by cases value <;> decide))).weaken
      fun _ _ _ shown => ?_
    exact shown.trans (Heap.isNone_eq_false (sound.grounded.rooted.bool value) (by simp))
  | .object ref, _, world, fit, used => by
    obtain rfl := HostValue.shapes_of_fits fit
    exact runs_retain_shown (used ref (by simp [HostValue.references]))
  | .keywords (some ref), _, world, fit, used => by
    obtain rfl := HostValue.shapes_of_fits fit
    exact runs_retain_shown (used ref (by simp [HostValue.references]))
  | .keywords none, _, world, fit, _ => by
    obtain rfl := HostValue.shapes_of_fits fit
    exact runs_place_shown (.dict .empty) trivial (by simp)
  | .int value, _, world, fit, _ => by
    obtain ⟨kind, rfl, _⟩ := HostValue.shapes_of_fits fit
    exact runs_place_shown (.int value) trivial (by simp)
  | .boxed value, _, world, fit, used => by
    obtain ⟨element, rfl, fit⟩ := HostValue.shapes_of_fits fit
    exact runs_shown value fit used
  | .present value, _, world, fit, used => by
    obtain ⟨element, rfl, fit⟩ := HostValue.shapes_of_fits fit
    exact runs_shown value fit used
  | .seq values, _, world, fit, used => by
    obtain ⟨element, rfl, fit⟩ := HostValue.shapes_of_fits fit
    exact (runs_elements element values [] fit used).bind fun items _ _ _ =>
      runs_place_shown (.list items) trivial (by simp)
  | .tuple values, _, world, fit, used => by
    obtain ⟨types, rfl, fit⟩ := HostValue.shapes_of_fits fit
    exact (runs_components types values [] used fit).bind fun items _ _ _ =>
      runs_place_shown (.tuple items) trivial (by simp)
  | .map values, _, world, fit, used => by
    obtain ⟨order, key, value, rfl, fit⟩ := HostValue.shapes_of_fits fit
    exact (runs_entries key value values [] fit used).bind fun pairs _ _ _ =>
      runs_placeDict_shown pairs
  | .struct values, _, world, fit, used => by
    obtain ⟨id, rfl, fit⟩ := HostValue.shapes_of_fits fit
    refine .assuming fun frame sound => .look_bind rfl ?_
    cases handle : (world.registry registry).handle? id with
    | none =>
      exact (runs_fields _ values [] fit used).bind fun pairs _ _ _ => runs_placeDict_shown pairs
    | some type =>
      obtain ⟨bridged, shape, same, host⟩ :=
        sound.wired.handle registry id type (Registry.mem_types_of_handle? handle)
      refine (makes_wrapCopy shape same (by rw [host]; exact fit) used).runs.weaken
        fun ref after _ wrapper => ?_
      obtain ⟨cell, shape, owner, present, body, _⟩ := Heap.wrapper?_eq_some.mp wrapper.2
      exact Heap.isNone_eq_false ((Heap.body_eq present).trans body) (by simp)
  | .sealed word, _, world, fit, _ => by
    obtain ⟨id, rfl⟩ := HostValue.shapes_of_fits fit
    exact .panic _
  | .single value, _, world, fit, _ => by
    obtain rfl := HostValue.shapes_of_fits fit
    exact runs_place_shown (.float value.toBinary64) trivial (by simp)
  | .double value, _, world, fit, _ => by
    obtain rfl := HostValue.shapes_of_fits fit
    exact runs_place_shown (.float value) trivial (by simp)
  | .complexSingle real imaginary, _, world, fit, _ => by
    obtain rfl := HostValue.shapes_of_fits fit
    exact runs_place_shown (.complex real.toBinary64 imaginary.toBinary64) trivial (by simp)
  | .complexDouble real imaginary, _, world, fit, _ => by
    obtain rfl := HostValue.shapes_of_fits fit
    exact runs_place_shown (.complex real imaginary) trivial (by simp)
  | .text value, _, world, fit, _ => by
    obtain rfl := HostValue.shapes_of_fits fit
    exact runs_place_shown (.text value) trivial (by simp)
  | .bytes value, _, world, fit, _ => by
    obtain rfl := HostValue.shapes_of_fits fit
    exact runs_place_shown (.bytes value) trivial (by simp)

theorem isNone_of_run (sound : world.Sound program held) {type : HostType} {value : HostValue}
    {ref : Ref} (fit : value.fits program type = true)
    (used : ∀ ref ∈ value.references, ref.place < world.heap.size)
    (ran : (Encode.value program registry type value).run world = (.ok ref, after)) :
    after.heap.isNone ref = value.vacant world.heap := by
  have runs : Runs program .anything (Encode.value program registry type value) world 0 _ _ :=
    runs_shown value fit used
  exact (runs.ok (by rwa [zero_add]) ran).2

end Encode

/-! ## Payloads that come back -/

/-- What is inside of boxes and optionals. -/
def HostType.core : HostType → HostType
  | .boxed element => element.core
  | .optional element => element.core
  | type => type

variable (program) in
/-- A type inside of boxes and optionals whose values come back, or that of all objects. -/
def HostType.Recoverable (registered : StructId → Prop) (type : HostType) : Prop :=
  type.core = .object ∨ type.core.Convertible program registered

/-- A value of a type whose values come back does come back. -/
theorem World.Sound.comesBack_of_convertible (founded : program.Founded)
    (sound : world.Sound program held) {type : HostType} {value : HostValue}
    (fit : value.fits program type = true) (regular : value.Regular)
    (used : ∀ ref ∈ value.references, ref.place < world.heap.size)
    (convertible : type.Convertible program (world.registers registry)) :
    ∃ ref after back, (Encode.value program registry type value).run world = (.ok ref, after) ∧
      Decode.fresh program after.heap registry type ref = .ok back ∧ value.Alike back := by
  obtain ⟨plain, shown, returns⟩ := convertible
  have ready : world.Encodes program registry (world.registers registry) plain held :=
    ⟨sound, fun _ => Iff.rfl, shown⟩
  have makes : Encode.MakesValue program Permission.anything registry (world.registers registry)
      type value world := Encode.makes_value value ready fit regular used returns
  obtain ⟨ref, after, ran, made, denotes⟩ := makes
  obtain ⟨back, read, alike⟩ := denotes.fresh founded (made.encodes ready).sound.grounded
  exact ⟨ref, after, back, ran, read, alike⟩

/-- What is not vacant comes back as a value that is like it, out of boxes and optionals too. -/
theorem World.Sound.comesBack (founded : program.Founded) (sound : world.Sound program held)
    {type : HostType} {value : HostValue} (fit : value.fits program type = true)
    (regular : value.Regular) (used : ∀ ref ∈ value.references, ref.place < world.heap.size)
    (recoverable : type.Recoverable program (world.registers registry))
    (something : value.vacant world.heap = false) :
    ∃ ref after back, (Encode.value program registry type value).run world = (.ok ref, after) ∧
      Decode.fresh program after.heap registry type ref = .ok back ∧ value.Alike back := by
  induction type using HostType.core.induct generalizing value with
  | case1 element ih =>
    obtain ⟨inner, rfl, fit⟩ := HostValue.fits_boxed_iff.mp fit
    obtain ⟨ref, after, back, ran, read, alike⟩ := ih fit regular used recoverable something
    refine ⟨ref, after, .boxed back, ran, ?_, congrArg HostValue.boxed alike⟩
    rw [Decode.fresh_boxed, read]
    rfl
  | case2 element ih =>
    cases value with
    | absent => cases something
    | present inner =>
      obtain ⟨ref, after, back, ran, read, alike⟩ := ih fit regular used recoverable something
      refine ⟨ref, after, .present back, ran, ?_, congrArg HostValue.present alike⟩
      have shown := Encode.isNone_of_run sound fit used ran
      rw [Decode.fresh_optional, shown.trans something, read]
      rfl
    | _ => cases fit
  | case3 type unboxed required =>
    have core : type.core = type := by
      cases type with
      | boxed element => exact (unboxed element rfl).elim
      | optional element => exact (required element rfl).elim
      | _ => rfl
    rw [HostType.Recoverable, core] at recoverable
    rcases recoverable with rfl | convertible
    · cases value with
      | object ref =>
        exact ⟨ref, world.retain ref, .object ref, rfl, rfl, .refl _⟩
      | _ => cases fit
    · exact sound.comesBack_of_convertible founded fit regular used convertible

/--
An optional with a payload is shown as the payload is, and so as nothing exactly if the payload is
vacant.  Then the payload is missing when the object is decoded.  Otherwise it is there, and it is
what the object is decoded as for a payload alone; if values of its type come back, or if it is an
object or holds one in boxes and optionals, it is the payload that was encoded.
-/
theorem World.Sound.optional_payload (founded : program.Founded)
    (sound : world.Sound program held) (registry : RegistryId) {payload : HostType}
    {value : HostValue} (fit : value.fits program payload = true)
    (used : ∀ ref ∈ value.references, ref.place < world.heap.size) :
    Encode.value program registry (.optional payload) (.present value) =
      Encode.value program registry payload value ∧
    (Encode.value program registry (.optional payload) .absent).run world =
      (.ok .none, world.retain .none) ∧
    (∀ ref after, (Encode.value program registry (.optional payload) (.present value)).run world =
      (.ok ref, after) →
        (after.heap.isNone ref = true ↔ value.vacant world.heap = true) ∧
        Decode.fresh program after.heap registry (.optional payload) ref =
          if value.vacant world.heap then .ok .absent
          else .present <$> Decode.fresh program after.heap registry payload ref) ∧
    (value.Regular → payload.Recoverable program (world.registers registry) →
      value.vacant world.heap = false →
        ∃ ref after back,
          (Encode.value program registry (.optional payload) (.present value)).run world =
            (.ok ref, after) ∧
          Decode.fresh program after.heap registry (.optional payload) ref =
            .ok (.present back) ∧ value.Alike back) := by
  have shown : ∀ ref after, (Encode.value program registry payload value).run world =
      (.ok ref, after) → after.heap.isNone ref = value.vacant world.heap :=
    fun ref after => Encode.isNone_of_run sound fit used
  refine ⟨rfl, rfl, fun ref after ran => ⟨?_, ?_⟩, fun regular recoverable something => ?_⟩
  · rw [shown ref after ran]
  · rw [Decode.fresh_optional, shown ref after ran]
  · obtain ⟨ref, after, back, ran, read, alike⟩ :=
      sound.comesBack founded fit regular used recoverable something
    refine ⟨ref, after, back, ran, ?_, alike⟩
    rw [Decode.fresh_optional, shown ref after ran, something, read]
    rfl

/-- A number in two optionals comes back; an empty optional in another one is lost. -/
theorem World.Sound.optional_payload_nested :
    let program := Sample.program fun _ => ""
    let payload := HostType.optional Sample.i64
    let number := HostValue.present (.int 5)
    (∃ ref after back,
      (Encode.value program ⟨0⟩ (.optional payload) (.present number)).run World.initial =
        (.ok ref, after) ∧
      Decode.fresh program after.heap ⟨0⟩ (.optional payload) ref = .ok (.present back) ∧
      number.Alike back) ∧
    ∃ ref after,
      (Encode.value program ⟨0⟩ (.optional payload) (.present .absent)).run World.initial =
        (.ok ref, after) ∧
      Decode.fresh program after.heap ⟨0⟩ (.optional payload) ref = .ok .absent := by
  intro program payload number
  have founded : program.Founded := Sample.founded _
  have sound : World.initial.Sound program 0 := World.sound_initial
  have recoverable : payload.Recoverable program (World.initial.registers ⟨0⟩) :=
    .inr ⟨fun _ => False, fun _ impossible => impossible.elim, trivial⟩
  have some : number.fits program payload = true := rfl
  have none : HostValue.absent.fits program payload = true := rfl
  constructor
  · exact (sound.optional_payload founded ⟨0⟩ some nofun).2.2.2 trivial recoverable rfl
  · exact ⟨_, _, rfl, ((sound.optional_payload founded ⟨0⟩ none nofun).2.2.1 _ _ rfl).2⟩

/-- An optional that holds the object for nothing is not told from an empty one. -/
theorem optional_payload_lost :
    let program := Sample.program fun _ => ""
    let type := HostType.optional .object
    let value := HostValue.present (.object .none)
    value.fits program type = true ∧
    (Encode.value program ⟨0⟩ type value).run World.initial =
      (Encode.value program ⟨0⟩ type .absent).run World.initial ∧
    ∃ ref after, (Encode.value program ⟨0⟩ type value).run World.initial = (.ok ref, after) ∧
      Decode.fresh program after.heap ⟨0⟩ type ref ≠ .ok value := by
  refine ⟨rfl, rfl, .none, World.initial.retain .none, rfl, ?_⟩
  exact fun same => nomatch same

end HostBridge
