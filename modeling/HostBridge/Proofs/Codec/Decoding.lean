import HostBridge.Proofs.Codec.Denotation
import HostBridge.Proofs.Codec.Destination
import HostBridge.Proofs.Codec.Reading

/-!
# Decoding what stands for a value

An object that stands for a value is read as one that is like it.  The old value
that a struct is merged into does not matter, since the dict mentions every field;
and the walk is deep enough, since what an object is made of is older than it.
-/

namespace HostBridge

open Refusal

variable {program : Program} {heap : Heap} {registry : RegistryId} {registered : StructId → Prop}

/-- What the decoder reads a value of a type as, at some depth: one that is like it, and the same
one if it is to be a key. -/
def HostValue.ReadBack (value : HostValue) (type : HostType) (registered : StructId → Prop)
    (read : Except Refusal HostValue) : Prop :=
  ∃ back, read = .ok back ∧ value.Alike back ∧ (type.Keyed registered → back = value)

theorem HostValue.ReadBack.same {value : HostValue} {type : HostType}
    {read : Except Refusal HostValue} (same : read = .ok value) :
    value.ReadBack type registered read :=
  ⟨value, same, .refl value, fun _ => rfl⟩

/-- The decoder that goes from a dict into another so many times at most. -/
abbrev Decode.reader (program : Program) (heap : Heap) (registry : RegistryId) (depth : Nat) :
    HostType → Ref → HostValue → Except Refusal HostValue :=
  Decode.valueWith program heap (Decode.struct program heap registry depth)

theorem DenotesAll.length {bound : Nat} {types : List HostType} {values : List HostValue}
    {items : List Ref} : DenotesAll program heap registry registered bound types values items →
      items.length = types.length
  | .nil => rfl
  | .cons _ _ rest => by rw [List.length_cons, List.length_cons, rest.length]

mutual

/-- What stands for a value is read as it, whatever the old value is. -/
theorem Denotes.decoded (founded : program.Founded) (rooted : heap.Rooted) {type : HostType}
    {value old : HostValue} {ref : Ref} {depth : Nat} :
    Denotes program heap registry registered type value ref → old.fits program type = true →
      ref.place < depth →
        value.ReadBack type registered (Decode.reader program heap registry depth type ref old)
  | .unit, _, _ => .same (by simp [Decode.reader, Decode.valueWith, Heap.isNone, rooted.none])
  | .bool value, _, _ =>
    .same (by simp [Decode.reader, Decode.valueWith, Heap.asBool?, rooted.bool value])
  | .int inside reading, _, _ =>
    .same (by simp [Decode.reader, Decode.valueWith, Heap.asInt?, reading, inside])
  | .double reading, _, _ =>
    .same (by simp [Decode.reader, Decode.valueWith, Heap.asFloat?, reading])
  | .complexDouble reading, _, _ =>
    .same (by simp [Decode.reader, Decode.valueWith, Heap.asComplex?, reading])
  | .text reading, _, _ =>
    .same (by simp [Decode.reader, Decode.valueWith, Heap.asText?, reading])
  | .bytes reading, _, _ =>
    .same (by simp [Decode.reader, Decode.valueWith, Heap.asBytes?, reading])
  | .absent, _, _ =>
    .same (by simp [Decode.reader, Decode.valueWith, Heap.isNone, rooted.none])
  | @Denotes.single _ _ _ _ value ref reading, _, _ => by
    refine ⟨.single value.toBinary64.toBinary32, ?_, ?_, fun keyed => keyed.elim⟩
    · simp [Decode.reader, Decode.valueWith, Heap.asFloat?, reading]
    · rw [HostValue.Alike, HostValue.unified, HostValue.unified,
        Binary32.unified_toBinary32_toBinary64]
  | @Denotes.complexSingle _ _ _ _ real imaginary ref reading, _, _ => by
    refine ⟨.complexSingle real.toBinary64.toBinary32 imaginary.toBinary64.toBinary32, ?_, ?_,
      fun keyed => keyed.elim⟩
    · simp [Decode.reader, Decode.valueWith, Heap.asComplex?, reading]
    · rw [HostValue.Alike, HostValue.unified, HostValue.unified,
        Binary32.unified_toBinary32_toBinary64, Binary32.unified_toBinary32_toBinary64]
  | @Denotes.seq _ _ _ _ element values items ref reading each, _, deep => by
    obtain ⟨backs, read, alike⟩ := each.decoded founded rooted 0 (Nat.le_of_lt deep)
    refine ⟨.seq backs, ?_, congrArg HostValue.seq alike, fun keyed => keyed.elim⟩
    have found : heap.items? ref = some items := by simp [Heap.items?, reading]
    simp only [Decode.reader, Decode.valueWith, found, read]
    rfl
  | @Denotes.map _ _ _ _ order keyType valueType entries table ref keyed ascending reading each, _,
      deep => by
    obtain ⟨backs, read, alike⟩ :=
      each.decoded founded rooted keyed (Nat.le_of_lt deep) [] (by simpa using ascending)
    refine ⟨.map backs, ?_, congrArg HostValue.map alike, fun keyed => keyed.elim⟩
    have found : heap.dict? ref = some table := by simp [Heap.dict?, reading]
    rw [List.nil_append] at read
    simp only [Decode.reader, Decode.valueWith, found]
    rw [read]
    rfl
  | @Denotes.wrapper _ _ _ _ id value ref bridged reading same host, _, _ => by
    refine .same ?_
    obtain ⟨cell, type, _, present, body, _⟩ := Heap.wrapper?_eq_some.mp reading
    have owned : heap.ownedValue? ref = some value :=
      Heap.ownedValue?_eq_some.mpr ⟨cell, type, _, present, body⟩
    have wrapped : heap.wrapped? ref = some (value, bridged) := by
      simp [Heap.wrapped?, reading, Heap.location, owned]
    unfold Decode.reader Decode.valueWith Decode.struct
    simp [wrapped, same, host]
  | @Denotes.fields _ _ _ _ id values table ref unregistered reading each, fit, deep => by
    obtain ⟨depth, rfl⟩ := Nat.exists_eq_add_of_lt (Nat.zero_lt_of_lt deep)
    rw [zero_add] at deep ⊢
    obtain ⟨olds, rfl, fits⟩ := HostValue.fits_struct_iff.mp fit
    obtain ⟨backs, read, alike⟩ := each.decoded founded rooted (program.struct id).name fits
      (Nat.le_of_lt_succ deep)
    refine ⟨.struct backs, ?_, congrArg HostValue.struct alike, fun keyed =>
      absurd keyed unregistered⟩
    have wrapped : heap.wrapped? ref = none := by simp [Heap.wrapped?, Heap.wrapper?, reading]
    have found : heap.dict? ref = some table := by simp [Heap.dict?, reading]
    unfold Decode.reader Decode.valueWith Decode.struct
    simp only [wrapped, found, read]
    rfl
  | @Denotes.boxed _ _ _ _ element value ref inner, fit, deep => by
    obtain ⟨before, rfl, fits⟩ := HostValue.fits_boxed_iff.mp fit
    obtain ⟨back, read, alike, same⟩ := inner.decoded founded rooted fits deep
    refine ⟨.boxed back, ?_, congrArg HostValue.boxed alike, fun keyed => by rw [same keyed]⟩
    simp only [Decode.reader, Decode.valueWith, read]
    rfl
  | @Denotes.present _ _ _ _ element value ref solid inner, _, deep => by
    obtain ⟨back, read, alike, same⟩ :=
      inner.decoded founded rooted (program.fits_zero founded element) deep
    refine ⟨.present back, ?_, congrArg HostValue.present alike, fun keyed => by rw [same keyed]⟩
    have something : heap.isNone ref = false := by
      have there := inner.something rooted solid
      unfold Heap.isNone
      split <;> simp_all
    simp only [Decode.reader, Decode.valueWith, something, read]
    rfl
  | @Denotes.tuple _ _ _ _ types values items ref reading each, _, deep => by
    obtain ⟨backs, read, alike, same⟩ := each.decoded founded rooted 0 (Nat.le_of_lt deep)
    refine ⟨.tuple backs, ?_, congrArg HostValue.tuple alike, fun keyed => by rw [same keyed]⟩
    have found : heap.items? ref = some items := by simp [Heap.items?, reading]
    have size := each.length
    simp only [Decode.reader, Decode.valueWith, found, size, if_true, read]
    rfl

theorem DenotesEach.decoded (founded : program.Founded) (rooted : heap.Rooted) {bound : Nat}
    {element : HostType} {values : List HostValue} {items : List Ref} {depth : Nat} :
    DenotesEach program heap registry registered bound element values items → ∀ start : Nat,
      bound ≤ depth → ∃ backs, ((items.zipIdx start).mapM fun (item, index) =>
        Refusal.within s!"[{index}]"
          (Decode.reader program heap registry depth element item (program.zero element))) = .ok backs ∧
        HostValue.unifiedAll values = HostValue.unifiedAll backs
  | .nil, _, _ => ⟨[], rfl, rfl⟩
  | .cons below first rest, start, deep => by
    obtain ⟨back, read, alike, _⟩ := first.decoded founded rooted
      (program.fits_zero founded element) (Nat.lt_of_lt_of_le below deep)
    obtain ⟨backs, reads, alikes⟩ := rest.decoded founded rooted (start + 1) deep
    refine ⟨back :: backs, ?_, ?_⟩
    · rw [List.zipIdx_cons, List.mapM_cons]
      dsimp only
      rw [read, reads]
      rfl
    · rw [HostValue.unifiedAll, HostValue.unifiedAll, alike, alikes]

theorem DenotesAll.decoded (founded : program.Founded) (rooted : heap.Rooted) {bound : Nat}
    {types : List HostType} {values : List HostValue} {items : List Ref} {depth : Nat} :
    DenotesAll program heap registry registered bound types values items → ∀ start : Nat,
      bound ≤ depth → ∃ backs, Decode.elementsWith program heap
        (Decode.struct program heap registry depth) types items start = .ok backs ∧
        HostValue.unifiedAll values = HostValue.unifiedAll backs ∧
        (HostType.KeyedAll registered types → backs = values)
  | .nil, _, _ => ⟨[], by simp [Decode.elementsWith], rfl, fun _ => rfl⟩
  | @DenotesAll.cons _ _ _ _ _ type _ _ _ _ _ below first rest, start, deep => by
    obtain ⟨back, read, alike, same⟩ := first.decoded founded rooted
      (program.fits_zero founded type) (Nat.lt_of_lt_of_le below deep)
    obtain ⟨backs, reads, alikes, sames⟩ := rest.decoded founded rooted (start + 1) deep
    refine ⟨back :: backs, ?_, ?_, fun keyed => ?_⟩
    · rw [Decode.reader] at read
      rw [Decode.elementsWith, read, reads]
      rfl
    · rw [HostValue.unifiedAll, HostValue.unifiedAll, alike, alikes]
    · rw [same keyed.1, sames keyed.2]

theorem DenotesEntries.decoded (founded : program.Founded) (rooted : heap.Rooted) {bound : Nat}
    {keyType valueType : HostType} (keyed : keyType.Keyed registered)
    {values : List (HostValue × HostValue)} {entries : List DictEntry} {depth : Nat} :
    DenotesEntries program heap registry registered bound keyType valueType values entries →
      bound ≤ depth → ∀ done : List (HostValue × HostValue),
        HostValue.Ascending ((done ++ values).map (·.1)) →
        ∃ backs, entries.foldlM (fun entries entry => do
          let name := heap.text entry.key
          let key ← Refusal.within s!"key {name}"
            (Decode.reader program heap registry depth keyType entry.key (program.zero keyType))
          let value ← Refusal.within s!"[{name}]"
            (Decode.reader program heap registry depth valueType entry.value
              (program.zero valueType))
          return HostValue.insertEntry key value entries) done = .ok (done ++ backs) ∧
          HostValue.unifiedEntries values = HostValue.unifiedEntries backs
  | .nil, _, done, _ => ⟨[], by rw [List.append_nil]; rfl, rfl⟩
  | @DenotesEntries.cons _ _ _ _ _ _ _ key value values entry entries keyBelow valueBelow first second
      rest, deep, done, ascending => by
    obtain ⟨keyBack, keyRead, _, same⟩ := first.decoded founded rooted
      (program.fits_zero founded keyType) (Nat.lt_of_lt_of_le keyBelow deep)
    obtain ⟨back, read, alike, _⟩ := second.decoded founded rooted
      (program.fits_zero founded valueType) (Nat.lt_of_lt_of_le valueBelow deep)
    rw [same keyed] at keyRead
    -- The key comes after those of the entries before it, and is the same as the one read.
    have last : ∀ name ∈ done.map (·.1), key.order name = .gt := by
      intro name member
      rw [HostValue.Ascending, List.map_append, List.pairwise_append] at ascending
      exact ascending.2.2 name member key (by simp)
    have following : HostValue.Ascending (((done ++ [(key, back)]) ++ values).map (·.1)) := by
      simpa using ascending
    obtain ⟨backs, reads, alikes⟩ := rest.decoded founded rooted keyed deep _ following
    refine ⟨(key, back) :: backs, ?_, ?_⟩
    · rw [List.foldlM_cons]
      simp only [keyRead, read, Refusal.within_ok, bind, Except.bind, pure, Except.pure,
        HostValue.insertEntry_last last]
      rw [← List.append_cons] at reads
      exact reads
    · rw [HostValue.unifiedEntries, HostValue.unifiedEntries, alike, alikes]

theorem DenotesFields.decoded (founded : program.Founded) (rooted : heap.Rooted) {bound : Nat}
    {table : Dict} {fields : List FieldDecl} {values : List HostValue} {depth : Nat} :
    DenotesFields program heap registry registered bound table fields values → ∀ (owner : String)
      {olds : List HostValue}, HostValue.fitsAll program (fields.map (·.type)) olds = true →
      bound ≤ depth → ∃ backs, Decode.fields program heap
        (Decode.struct program heap registry depth) owner table fields olds = .ok backs ∧
        HostValue.unifiedAll values = HostValue.unifiedAll backs
  | .nil, _, olds, fit, _ => by
    cases olds with
    | nil => exact ⟨[], by simp [Decode.fields], rfl⟩
    | cons => cases fit
  | @DenotesFields.cons _ _ _ _ _ _ field _ _ _ ref exported found below first rest, owner, olds, fit,
      deep => by
    cases olds with
    | nil => cases fit
    | cons old olds =>
      simp only [List.map_cons, HostValue.fitsAll, Bool.and_eq_true] at fit
      obtain ⟨back, read, alike, _⟩ := first.decoded founded rooted fit.1
        (Nat.lt_of_lt_of_le below deep)
      obtain ⟨backs, reads, alikes⟩ := rest.decoded founded rooted owner fit.2 deep
      refine ⟨back :: backs, ?_, ?_⟩
      · rw [Decode.reader] at read
        rw [Decode.fields_cons, Decode.readField, exported, found]
        simp only [Decode.refusedField, read, reads]
        rfl
      · rw [HostValue.unifiedAll, HostValue.unifiedAll, alike, alikes]

end

end HostBridge
