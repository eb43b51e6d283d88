import HostBridge.Object.Attribute
import HostBridge.Bridge.Export
import HostBridge.Proofs.Operation
import HostBridge.Proofs.Value.Typing

/-!
# Decoding into a destination

`Decode.value` says which value an object is read as.  Host code does not see
that value: it hands out a place of its own, and the decoder writes there, on
several occasions and at several depths, with failures in between.  This module
gives the decoder in that form.  A `Cursor` is a place in some memory, and
`Decode.fill` writes through one: scalars and whole containers at once, the
contents of a box in place, items into temporaries of their own.  Nothing in a
`Filling` takes a write back after a failure.

The two forms agree: filling writes what `Decode.value` reads, at once and as the
last thing it does, and where that refuses the memory is as it was.  Writing an
attribute is filling the field behind a wrapper, so an assignment that fails
leaves the world as it was.
-/

namespace HostBridge

open Operation

/-- A place for a host value, in a memory that has a heap in it. -/
structure Cursor (σ : Type) where
  heap : σ → Heap
  read : σ → HostValue
  write : HostValue → σ → σ

namespace Cursor

variable {σ : Type}

/-- The inside of a box. -/
def pointee (place : Cursor σ) : Cursor σ where
  heap := place.heap
  read state :=
    match place.read state with
    | .boxed inner => inner
    | other => other
  write value := place.write (.boxed value)

/-- An item of a tuple. -/
def component (place : Cursor σ) (index : Nat) : Cursor σ where
  heap := place.heap
  read state :=
    match place.read state with
    | .tuple values => (values[index]?).getD .unit
    | _ => .unit
  write value state :=
    match place.read state with
    | .tuple values => place.write (.tuple (values.set index value)) state
    | _ => state

/-- A field of a struct. -/
def field (place : Cursor σ) (index : Nat) : Cursor σ where
  heap := place.heap
  read state := ((place.read state).field? index).getD .unit
  write value state := place.write ((place.read state).setField index value) state

/-- A place of its own beside a memory. -/
def temporary (place : Cursor σ) : Cursor (σ × HostValue) where
  heap state := place.heap state.1
  read state := state.2
  write value state := (state.1, value)

end Cursor

namespace Refusal

/-- What a refusal becomes on the way out of a place inside an object. -/
def nestedIn (place : String) : Refusal → Refusal
  | .error cause => .error (.nested place cause)
  | refusal => refusal

@[simp]
theorem within_ok (place : String) (value : α) :
    within place (.ok value) = (.ok value : Except Refusal α) := rfl

@[simp]
theorem within_error (place : String) (refusal : Refusal) :
    within place (.error refusal) = (.error (refusal.nestedIn place) : Except Refusal α) := by
  cases refusal <;> rfl

end Refusal

/-- Steps that write to a memory and may be refused.  What has been written
before a refusal stays. -/
abbrev Filling (σ : Type) (α : Type) := ExceptT Refusal (StateM σ) α

namespace Filling

variable {σ α : Type}

/-- Hand on what has been read, or be refused. -/
def ofExcept (result : Except Refusal α) : Filling σ α := ExceptT.mk fun state => (result, state)

/-- Write a value. -/
def store (place : Cursor σ) (value : HostValue) : Filling σ Unit := modify (place.write value)

/-- Work on a temporary that starts with a value, and hand out what it holds in
the end. -/
def withTemporary (initial : HostValue) (action : Filling (σ × HostValue) Unit) :
    Filling σ HostValue :=
  ExceptT.mk fun state =>
    match action.run (state, initial) with
    | (.ok (), state, value) => (.ok value, state)
    | (.error refusal, state, _) => (.error refusal, state)

/-- Change how a refusal is reported. -/
def reporting (report : Except Refusal α → Except Refusal α) (action : Filling σ α) :
    Filling σ α :=
  ExceptT.mk fun state => ((report (action.run state).1), (action.run state).2)

/-- Put an item at the end of the sequence at a place. -/
def push (place : Cursor σ) (value : HostValue) : Filling σ Unit :=
  modify fun state =>
    match place.read state with
    | .seq values => place.write (.seq (values ++ [value])) state
    | _ => state

/-- Put an entry into the map at a place. -/
def insert (place : Cursor σ) (key value : HostValue) : Filling σ Unit :=
  modify fun state =>
    match place.read state with
    | .map entries => place.write (.map (HostValue.insertEntry key value entries)) state
    | _ => state

end Filling

namespace Decode

open Filling

/-- How structs are filled. -/
abbrev FillStructs := (σ : Type) → StructId → Ref → Cursor σ → Filling σ Unit

/-- A field of a struct that is refused is a misuse. -/
def refusedField (owner field : String) : Except Refusal α → Except Refusal α
  | .error (.error cause) => .error (.panic (.fieldRefused owner field cause.message))
  | result => result

section

variable (program : Program)

mutual

/-- Fill a place from an object, given how structs are filled. -/
def fillWith (structs : FillStructs) :
    HostType → (σ : Type) → Ref → Cursor σ → Filling σ Unit
  | .seq element, _, ref, place => do
    let heap := place.heap (← get)
    match heap.items? ref with
    | none => Filling.ofExcept (mismatch heap "list" ref)
    | some items =>
      let made ← withTemporary (.seq []) <| items.zipIdx.forM fun (item, index) => do
        let value ← reporting (Refusal.within s!"[{index}]") <|
          withTemporary (program.zero element) <|
            fillWith structs element _ item place.temporary.temporary
        push place.temporary value
      store place made
  | .map _ key value, _, ref, place => do
    let heap := place.heap (← get)
    match heap.dict? ref with
    | none => Filling.ofExcept (mismatch heap "dict" ref)
    | some table =>
      let made ← withTemporary (.map []) <| table.entries.forM fun entry => do
        let name := heap.text entry.key
        let key ← reporting (Refusal.within s!"key {name}") <|
          withTemporary (program.zero key) <|
            fillWith structs key _ entry.key place.temporary.temporary
        let value ← reporting (Refusal.within s!"[{name}]") <|
          withTemporary (program.zero value) <|
            fillWith structs value _ entry.value place.temporary.temporary
        insert place.temporary key value
      store place made
  | .struct id, σ, ref, place => structs σ id ref place
  | .boxed element, σ, ref, place => fillWith structs element σ ref place.pointee
  | .optional element, _, ref, place => do
    let heap := place.heap (← get)
    if heap.isNone ref then store place .absent
    else
      let made ← withTemporary (program.zero element) <|
        fillWith structs element _ ref place.temporary
      store place (.present made)
  | .tuple elements, _, ref, place => do
    let heap := place.heap (← get)
    match heap.items? ref with
    | some items =>
      if items.length = elements.length then
        let made ← withTemporary (program.zero (.tuple elements)) <|
          fillComponents structs elements _ items 0 place.temporary
        store place made
      else Filling.ofExcept (mismatch heap s!"tuple of {elements.length}" ref)
    | none => Filling.ofExcept (mismatch heap s!"tuple of {elements.length}" ref)
  -- What is left has no parts: it is read as a whole, then written.
  | type, _, ref, place => do
    let state ← get
    let noStructs : Structs := fun _ _ old => .ok old
    store place (← Filling.ofExcept
      (valueWith program (place.heap state) noStructs type ref (place.read state)))

/-- Fill the items of a tuple, the first of which has a given position. -/
def fillComponents (structs : FillStructs) :
    List HostType → (σ : Type) → List Ref → Nat → Cursor σ → Filling σ Unit
  | type :: types, _, item :: items, index, place => do
    reporting (Refusal.within s!"[{index}]") <|
      fillWith structs type _ item (place.component index)
    fillComponents structs types _ items (index + 1) place
  | _, _, _, _, _ => pure ()

end

/-- A box is filled by filling what it holds. -/
theorem fillWith_boxed (structs : FillStructs) (element : HostType) (σ : Type) (ref : Ref)
    (place : Cursor σ) :
    fillWith program structs (.boxed element) σ ref place =
      fillWith program structs element σ ref place.pointee := by
  rw [fillWith]

/-- Fill the field of a struct at a position, if a dict mentions it.  A field that
the value lacks is passed over. -/
def fillField (structs : FillStructs) (owner : String) (table : Dict) {σ : Type}
    (field : FieldDecl) (index : Nat) (place : Cursor σ) : Filling σ Unit := do
  match field.exported, table.get? (.text (Name.snake field.name)),
      (place.read (← get)).field? index with
  | true, some ref, some _ =>
    reporting (refusedField owner field.name) <|
      fillWith program structs field.type _ ref (place.field index)
  | _, _, _ => pure ()

/-- Fill the fields of a struct, the first of which has a given position. -/
def fillFields (structs : FillStructs) (owner : String) (table : Dict) {σ : Type} :
    List FieldDecl → Nat → Cursor σ → Filling σ Unit
  | field :: rest, index, place => do
    fillField program structs owner table field index place
    fillFields structs owner table rest (index + 1) place
  | [], _, _ => pure ()

/-- Fill a struct from a wrapper, or from a dict in a way that is given. -/
def fillStructWith (registry : RegistryId) {σ : Type} (id : StructId) (ref : Ref)
    (place : Cursor σ) (fromDict : Dict → Filling σ Unit) : Filling σ Unit := do
  let heap := place.heap (← get)
  let decl := program.struct id
  match heap.wrapped? ref with
  | some (value, bridged) =>
    if bridged.registry = registry ∧ bridged.host = id then store place value
    else throw (.error (.wrongWrapper decl.name (heap.typeName ref)))
  | none =>
    match heap.dict? ref with
    | none => Filling.ofExcept (mismatch heap decl.name ref)
    | some table => fromDict table

/-- Fill a struct, leading at most `depth` times from a dict into another. -/
def fillStruct (registry : RegistryId) : (depth : Nat) → FillStructs
  | 0, _, id, ref, place =>
    fillStructWith program registry id ref place fun _ => throw .tooDeep
  | depth + 1, _, id, ref, place =>
    fillStructWith program registry id ref place fun table => do
      let decl := program.struct id
      let made ← withTemporary (place.read (← get)) <|
        fillFields program (fillStruct registry depth) decl.name table decl.fields 0
          place.temporary
      store place made

/-- Fill a place from an object. -/
def fill (registry : RegistryId) (type : HostType) {σ : Type} (ref : Ref) (place : Cursor σ) :
    Filling σ Unit := do
  let heap := place.heap (← get)
  fillWith program (fillStruct program registry (depth program heap)) type σ ref place

end

end Decode

/-! ## What filling does -/

namespace Cursor

variable {σ : Type}

/-- How a filling ends that writes what has been read and nothing else. -/
def outcome (place : Cursor σ) (state : σ) (read : Except Refusal HostValue) :
    Except Refusal Unit × σ :=
  match read with
  | .ok value => (.ok (), place.write value state)
  | .error refusal => (.error refusal, state)

@[simp]
theorem outcome_ok (place : Cursor σ) (state : σ) (value : HostValue) :
    place.outcome state (.ok value) = (.ok (), place.write value state) := rfl

@[simp]
theorem outcome_error (place : Cursor σ) (state : σ) (refusal : Refusal) :
    place.outcome state (.error refusal) = (.error refusal, state) := rfl

theorem outcome_pointee (place : Cursor σ) (state : σ) (read : Except Refusal HostValue) :
    place.pointee.outcome state read =
      place.outcome state (do return .boxed (← read)) := by
  cases read <;> rfl

end Cursor

namespace Filling

variable {σ : Type} {state : σ} {initial : HostValue}
  {action : Filling (σ × HostValue) Unit} {read : Except Refusal HostValue}

/-- Steps on a temporary leave the memory alone and end as a read does: either
the temporary holds its value, or its refusal is that of the steps. -/
def Ends (action : Filling (σ × HostValue) Unit) (state : σ) (initial : HostValue) :
    Except Refusal HostValue → Prop
  | .ok value => action.run (state, initial) = (.ok (), state, value)
  | .error refusal => ∃ left, action.run (state, initial) = (.error refusal, state, left)

theorem ends_of_outcome {place : Cursor σ}
    (runs : action.run (state, initial) = place.temporary.outcome (state, initial) read) :
    Ends action state initial read := by
  cases read with
  | ok value => exact runs
  | error refusal => exact ⟨initial, runs⟩

/-- Later steps start from what the earlier ones have left. -/
theorem Ends.followed {next : Filling (σ × HostValue) Unit} {value : HostValue}
    (first : Ends action state initial (.ok value)) (second : Ends next state value read) :
    Ends (action >>= fun _ => next) state initial read := by
  have runs : action.run (state, initial) = (.ok (), state, value) := first
  cases read with
  | ok final => exact (run_bind_of_ok runs _).trans second
  | error refusal =>
    obtain ⟨left, refused⟩ := second
    exact ⟨left, (run_bind_of_ok runs _).trans refused⟩

/-- Later steps are not reached after a refusal. -/
theorem Ends.stopped {refusal : Refusal} (next : Filling (σ × HostValue) Unit)
    (first : Ends action state initial (.error refusal)) :
    Ends (action >>= fun _ => next) state initial (.error refusal) := by
  obtain ⟨left, refused⟩ := first
  exact ⟨left, run_bind_of_error refused _⟩

/-- A temporary is handed out with what was read into it. -/
theorem withTemporary_run (ends : Ends action state initial read) :
    (withTemporary initial action).run state = (read, state) := by
  cases read with
  | ok value =>
    have runs : action.run (state, initial) = (.ok (), state, value) := ends
    simp [withTemporary, runs]
  | error refusal =>
    obtain ⟨left, runs⟩ := ends
    simp [withTemporary, runs]

@[simp]
theorem reporting_run (report : Except Refusal α → Except Refusal α) (action : Filling σ α)
    (state : σ) :
    (reporting report action).run state =
      (report (action.run state).1, (action.run state).2) := rfl

@[simp]
theorem ofExcept_run (result : Except Refusal α) (state : σ) :
    (Filling.ofExcept result).run state = (result, state) := rfl

@[simp]
theorem store_run (place : Cursor σ) (value : HostValue) (state : σ) :
    (store place value).run state = (.ok (), place.write value state) := rfl

/-- What has been read into a temporary is written at once. -/
theorem store_temporary_run (place : Cursor σ) (ends : Ends action state initial read) :
    (withTemporary initial action >>= fun made => store place made).run state =
      place.outcome state read := by
  rw [run_bind, withTemporary_run ends]
  cases read <;> rfl

theorem store_present_run (place : Cursor σ) (ends : Ends action state initial read) :
    (withTemporary initial action >>= fun made => store place (.present made)).run state =
      place.outcome state (do return .present (← read)) := by
  rw [run_bind, withTemporary_run ends]
  cases read <;> rfl

theorem store_ofExcept_run (place : Cursor σ) (state : σ) (read : Except Refusal HostValue) :
    (Filling.ofExcept read >>= fun value => store place value).run state =
      place.outcome state read := by
  rw [run_bind, ofExcept_run]
  cases read <;> rfl

/-- Items that are read one after the other and pushed are those that are read
in a row. -/
theorem ends_pushing {item : Type} (place : Cursor σ)
    (readItem : item → Filling (σ × HostValue) HostValue)
    (expected : item → Except Refusal HostValue)
    (agree : ∀ one left, (readItem one).run (state, left) = (expected one, state, left))
    (items : List item) (done : List HostValue) :
    Ends (items.forM fun one => do push place.temporary (← readItem one)) state (.seq done)
      (do return .seq (done ++ (← items.mapM expected))) := by
  induction items generalizing done with
  | nil =>
    rw [List.mapM_nil]
    show Ends _ state (.seq done) (.ok (.seq (done ++ [])))
    rw [List.append_nil]
    rfl
  | cons head rest ih =>
    rw [List.mapM_cons]
    cases reading : expected head with
    | error refusal =>
      refine ⟨.seq done, ?_⟩
      apply run_bind_of_error
      apply run_bind_of_error
      rw [agree, reading]
    | ok value =>
      have pushed : Ends (do push place.temporary (← readItem head)) state (.seq done)
          (.ok (.seq (done ++ [value]))) := by
        show (readItem head >>= push place.temporary).run (state, .seq done) = _
        rw [run_bind, agree, reading]
        rfl
      have joined := pushed.followed (ih (done ++ [value]))
      have extended : (do return HostValue.seq (done ++ (← (do
            return value :: (← rest.mapM expected))))) =
          (do return HostValue.seq (done ++ [value] ++ (← rest.mapM expected)) :
            Except Refusal HostValue) := by
        cases rest.mapM expected with
        | error refusal => rfl
        | ok values => simp [bind, Except.bind, pure, Except.pure]
      rw [← extended] at joined
      exact joined

/-- Entries that are read one after the other and put in are those that are
folded into a map. -/
theorem ends_inserting {item : Type} (place : Cursor σ)
    (readKey readValue : item → Filling (σ × HostValue) HostValue)
    (key value : item → Except Refusal HostValue)
    (keysAgree : ∀ one left, (readKey one).run (state, left) = (key one, state, left))
    (valuesAgree : ∀ one left, (readValue one).run (state, left) = (value one, state, left))
    (items : List item) (done : List (HostValue × HostValue)) :
    Ends (items.forM fun one => do
        let key ← readKey one
        let value ← readValue one
        insert place.temporary key value) state (.map done)
      (do return .map (← items.foldlM (fun entries one => do
        let key ← key one
        let value ← value one
        return HostValue.insertEntry key value entries) done)) := by
  induction items generalizing done with
  | nil => rfl
  | cons head rest ih =>
    rw [List.foldlM_cons]
    cases keyRead : key head with
    | error refusal =>
      refine ⟨.map done, ?_⟩
      apply run_bind_of_error
      apply run_bind_of_error
      rw [keysAgree, keyRead]
    | ok name =>
      have keyRuns : (readKey head).run (state, .map done) = (.ok name, state, .map done) := by
        rw [keysAgree, keyRead]
      cases valueRead : value head with
      | error refusal =>
        refine ⟨.map done, ?_⟩
        apply run_bind_of_error
        rw [run_bind_of_ok keyRuns]
        apply run_bind_of_error
        rw [valuesAgree, valueRead]
      | ok content =>
        have entered : Ends (do
              let key ← readKey head
              let value ← readValue head
              insert place.temporary key value) state (.map done)
            (.ok (.map (HostValue.insertEntry name content done))) := by
          show (readKey head >>= fun key => readValue head >>= fun value =>
            insert place.temporary key value).run (state, .map done) = _
          rw [run_bind_of_ok keyRuns, run_bind, valuesAgree, valueRead]
          rfl
        exact entered.followed (ih (HostValue.insertEntry name content done))

end Filling

namespace Decode

open Filling

variable {program : Program} {heap : Heap}

/-- Filling places by a type is reading values of it and writing what was read. -/
def Fills (program : Program) (heap : Heap) (structs : FillStructs) (reads : Structs)
    (type : HostType) : Prop :=
  ∀ (σ : Type) (ref : Ref) (place : Cursor σ) (state : σ), place.heap state = heap →
    (fillWith program structs type σ ref place).run state =
      place.outcome state (valueWith program heap reads type ref (place.read state))

/-- Filling structs is reading them and writing what was read. -/
def FillsStructs (heap : Heap) (structs : FillStructs) (reads : Structs) : Prop :=
  ∀ (σ : Type) (id : StructId) (ref : Ref) (place : Cursor σ) (state : σ),
    place.heap state = heap →
      (structs σ id ref place).run state = place.outcome state (reads id ref (place.read state))

/-- Filling the items of a tuple of zero values is reading them, the first ones
being done. -/
def FillsAll (program : Program) (heap : Heap) (structs : FillStructs) (reads : Structs)
    (types : List HostType) : Prop :=
  ∀ (σ : Type) (refs : List Ref) (place : Cursor σ) (state : σ) (done : List HostValue),
    place.heap state = heap → refs.length = types.length →
      Ends (fillComponents program structs types _ refs done.length place.temporary) state
        (.tuple (done ++ types.map program.zero))
        (do return .tuple (done ++
          (← elementsWith program heap reads types refs done.length)))

section

variable {structs : FillStructs} {reads : Structs}

/-- A temporary of its own is filled with what is read into the zero value. -/
theorem Fills.fresh_run {σ : Type} {type : HostType} (fills : Fills program heap structs reads type)
    (place : Cursor σ) {state : σ} (here : place.heap state = heap)
    (report : Except Refusal HostValue → Except Refusal HostValue) (ref : Ref) (left : HostValue) :
    (reporting report <| withTemporary (program.zero type) <|
        fillWith program structs type _ ref place.temporary.temporary).run (state, left) =
      (report (valueWith program heap reads type ref (program.zero type)), state, left) := by
  rw [reporting_run, withTemporary_run (ends_of_outcome
    (fills _ ref place.temporary.temporary ((state, left), program.zero type) here))]
  rfl

/-- A type without parts is read as a whole, whatever is known about structs. -/
theorem fills_whole {type : HostType} {noStructs : Structs}
    (whole : ∀ (σ : Type) (ref : Ref) (place : Cursor σ),
      fillWith program structs type σ ref place = (do
        let state ← get
        store place (← Filling.ofExcept
          (valueWith program (place.heap state) noStructs type ref (place.read state)))))
    (same : ∀ (ref : Ref) (old : HostValue),
      valueWith program heap noStructs type ref old = valueWith program heap reads type ref old) :
    Fills program heap structs reads type := by
  intro σ ref place state here
  rw [whole, run_bind_of_ok (run_get state), store_ofExcept_run, here, same]

theorem fills_seq {element : HostType} (fills : Fills program heap structs reads element) :
    Fills program heap structs reads (.seq element) := by
  intro σ ref place state here
  rw [fillWith, valueWith, run_bind_of_ok (run_get state), here]
  cases items : heap.items? ref with
  | none => simp only [items]; rfl
  | some refs =>
    simp only [items]
    have each : ∀ (one : Ref × Nat) (left : HostValue), _ := fun one left =>
      fills.fresh_run place here (Refusal.within s!"[{one.2}]") one.1 left
    have filled := store_temporary_run place (ends_pushing place _ _ each refs.zipIdx [])
    rw [filled]
    rfl

theorem fills_map {order : MapOrder} {key value : HostType}
    (keyFills : Fills program heap structs reads key)
    (valueFills : Fills program heap structs reads value) :
    Fills program heap structs reads (.map order key value) := by
  intro σ ref place state here
  rw [fillWith, valueWith, run_bind_of_ok (run_get state), here]
  cases table : heap.dict? ref with
  | none => simp only [table]; rfl
  | some dict =>
    simp only [table]
    have keys : ∀ (one : DictEntry) (left : HostValue), _ := fun one left =>
      keyFills.fresh_run place here (Refusal.within s!"key {heap.text one.key}") one.key left
    have values : ∀ (one : DictEntry) (left : HostValue), _ := fun one left =>
      valueFills.fresh_run place here (Refusal.within s!"[{heap.text one.key}]") one.value left
    have filled := store_temporary_run place
      (ends_inserting place _ _ _ _ keys values dict.entries [])
    rw [filled]

theorem fills_boxed {element : HostType} (fills : Fills program heap structs reads element) :
    Fills program heap structs reads (.boxed element) := by
  intro σ ref place state here
  rw [fillWith_boxed, fills σ ref place.pointee state here, Cursor.outcome_pointee]
  rfl

theorem fills_optional {element : HostType} (fills : Fills program heap structs reads element) :
    Fills program heap structs reads (.optional element) := by
  intro σ ref place state here
  rw [fillWith, valueWith, run_bind_of_ok (run_get state), here]
  by_cases isNone : heap.isNone ref = true
  · simp [isNone]
  · simp only [isNone, Bool.false_eq_true, if_false]
    exact store_present_run place (ends_of_outcome
      (fills _ ref place.temporary (state, program.zero element) here))

theorem fillsAll_nil : FillsAll program heap structs reads [] := by
  intro σ refs place state done here matching
  rw [fillComponents, elementsWith]
  · rfl
  · simp
  · simp

theorem fillsAll_cons {type : HostType} {types : List HostType}
    (fills : Fills program heap structs reads type)
    (later : FillsAll program heap structs reads types) :
    FillsAll program heap structs reads (type :: types) := by
  intro σ refs place state done here matching
  rcases refs with _ | ⟨ref, refs⟩
  · simp at matching
  · rw [fillComponents, elementsWith]
    let before := HostValue.tuple (done ++ (type :: types).map program.zero)
    have zero : (place.temporary.component done.length).read (state, before) =
        program.zero type := by
      simp [Cursor.component, Cursor.temporary, before]
    have first := fills _ ref (place.temporary.component done.length) (state, before) here
    rw [zero] at first
    cases reading : valueWith program heap reads type ref (program.zero type) with
    | error refusal =>
      rw [reading] at first
      rw [Refusal.within_error]
      refine Ends.stopped _ ⟨before, ?_⟩
      rw [reporting_run, first]
      simp
    | ok value =>
      rw [reading] at first
      have filled : Ends (reporting (Refusal.within s!"[{done.length}]") <|
          fillWith program structs type _ ref (place.temporary.component done.length))
          state before (.ok (.tuple (done ++ [value] ++ types.map program.zero))) := by
        unfold Ends
        rw [reporting_run, first]
        simp [Cursor.component, Cursor.temporary, before]
      have rest := later σ refs place state (done ++ [value]) here (by simpa using matching)
      rw [List.length_append, List.length_singleton] at rest
      have joined := filled.followed rest
      rw [Refusal.within_ok]
      cases remaining : elementsWith program heap reads types refs (done.length + 1) with
      | error refusal =>
        rw [remaining] at joined
        exact joined
      | ok values =>
        rw [remaining] at joined
        show Ends _ state before (.ok (.tuple (done ++ value :: values)))
        rw [List.append_cons]
        exact joined

theorem fills_tuple {elements : List HostType}
    (fills : FillsAll program heap structs reads elements) :
    Fills program heap structs reads (.tuple elements) := by
  intro σ ref place state here
  rw [fillWith, valueWith, run_bind_of_ok (run_get state), here]
  cases items : heap.items? ref with
  | none => simp only [items]; rfl
  | some refs =>
    simp only [items]
    by_cases matching : refs.length = elements.length
    · simp only [matching, if_true]
      have zero : program.zero (.tuple elements) = .tuple ([] ++ elements.map program.zero) := by
        rw [Program.zero, Program.zeroWith, Program.zeroAllWith_eq_map]
        rfl
      have filled := store_temporary_run place (fills σ refs place state [] here matching)
      rw [zero]
      exact filled
    · simp only [matching, if_false]
      rfl

mutual

/-- Filling agrees with reading at every type if it does at structs. -/
theorem fillWith_run (agree : FillsStructs heap structs reads) :
    ∀ type : HostType, Fills program heap structs reads type
  | .seq element => fills_seq (fillWith_run agree element)
  | .map _ key value => fills_map (fillWith_run agree key) (fillWith_run agree value)
  | .struct id => fun σ ref place state here => agree σ id ref place state here
  | .boxed element => fills_boxed (fillWith_run agree element)
  | .optional element => fills_optional (fillWith_run agree element)
  | .tuple elements => fills_tuple (fillComponents_run agree elements)
  | .unit | .bool | .int _ | .float _ | .complex _ | .text | .bytes | .object | .keywords
  | .sealed _ => fills_whole (fun _ _ _ => rfl) (fun _ _ => rfl)

theorem fillComponents_run (agree : FillsStructs heap structs reads) :
    ∀ types : List HostType, FillsAll program heap structs reads types
  | [] => fillsAll_nil
  | type :: types => fillsAll_cons (fillWith_run agree type) (fillComponents_run agree types)

end

/-- Fields that the value lacks are passed over. -/
theorem fillFields_lacking {σ : Type} (place : Cursor σ) (state : σ) (owner : String)
    (table : Dict) {value : HostValue} (fields : List FieldDecl) (index : Nat)
    (lacking : ∀ later, index ≤ later → value.field? later = none) :
    Ends (fillFields program structs owner table fields index place.temporary) state value
      (.ok value) := by
  induction fields generalizing index with
  | nil => rfl
  | cons field rest ih =>
    have passed : Ends (fillField program structs owner table field index place.temporary)
        state value (.ok value) := by
      have missing : (place.temporary.read (state, value)).field? index = none :=
        lacking index (Nat.le_refl index)
      unfold Ends
      rw [fillField, run_bind_of_ok (run_get (state, value)), missing]
      cases field.exported <;> cases table.get? (.text (Name.snake field.name)) <;> rfl
    exact passed.followed (ih (index + 1) fun later above => lacking later (by omega))

/-- What a dict says of a field that has an old value. -/
def readField (program : Program) (heap : Heap) (reads : Structs) (owner : String) (table : Dict)
    (field : FieldDecl) (old : HostValue) : Except Refusal HostValue :=
  match field.exported, table.get? (.text (Name.snake field.name)) with
  | true, some ref =>
    refusedField owner field.name (valueWith program heap reads field.type ref old)
  | _, _ => .ok old

theorem fields_cons (owner : String) (table : Dict) (field : FieldDecl) (rest : List FieldDecl)
    (old : HostValue) (olds : List HostValue) :
    Decode.fields program heap reads owner table (field :: rest) (old :: olds) = (do
      let value ← readField program heap reads owner table field old
      return value :: (← Decode.fields program heap reads owner table rest olds)) := by
  rw [Decode.fields, readField]
  cases field.exported with
  | false => rfl
  | true =>
    cases table.get? (.text (Name.snake field.name)) with
    | none => rfl
    | some ref =>
      dsimp only
      rcases valueWith program heap reads field.type ref old with (cause | misuse | _) | value <;>
        rfl

theorem fillField_run (program : Program) (agree : FillsStructs heap structs reads) {σ : Type}
    (place : Cursor σ)
    {state : σ} (here : place.heap state = heap) (owner : String) (table : Dict)
    (field : FieldDecl) (done olds : List HostValue) (old : HostValue) :
    Ends (fillField program structs owner table field done.length place.temporary) state
      (.struct (done ++ old :: olds))
      (do return .struct (done ++
        (← readField program heap reads owner table field old) :: olds)) := by
  let before := HostValue.struct (done ++ old :: olds)
  have present : (place.temporary.read (state, before)).field? done.length = some old := by
    simp [Cursor.temporary, HostValue.field?, before]
  have inner : (place.temporary.field done.length).read (state, before) = old := by
    simp only [Cursor.field, present, Option.getD_some]
  have unchanged : Ends (pure ()) state before
      (do return .struct (done ++ (← (.ok old : Except Refusal HostValue)) :: olds)) := rfl
  unfold Ends at unchanged ⊢
  rw [fillField, readField, run_bind_of_ok (run_get (state, before)), present]
  cases field.exported with
  | false => exact unchanged
  | true =>
    cases table.get? (.text (Name.snake field.name)) with
    | none => exact unchanged
    | some ref =>
      dsimp only
      rw [reporting_run, fillWith_run agree field.type _ ref (place.temporary.field done.length)
        (state, before) here, inner]
      rcases valueWith program heap reads field.type ref old with (cause | misuse | _) | value
      · exact ⟨before, rfl⟩
      · exact ⟨before, rfl⟩
      · exact ⟨before, rfl⟩
      · simp [refusedField, Cursor.field, Cursor.temporary, HostValue.setField, before, bind,
          Except.bind, pure, Except.pure]

/-- Filling the fields of a struct is reading them, the first ones being done. -/
theorem fillFields_run (program : Program) (agree : FillsStructs heap structs reads) {σ : Type}
    (place : Cursor σ)
    {state : σ} (here : place.heap state = heap) (owner : String) (table : Dict)
    (fields : List FieldDecl) (done olds : List HostValue) :
    Ends (fillFields program structs owner table fields done.length place.temporary) state
      (.struct (done ++ olds))
      (do return .struct (done ++ (← Decode.fields program heap reads owner table fields olds))) := by
  induction fields generalizing done olds with
  | nil => rfl
  | cons field rest ih =>
    rcases olds with _ | ⟨old, olds⟩
    · refine fillFields_lacking place state owner table (field :: rest) done.length ?_
      intro later above
      simp [HostValue.field?, above]
    · have first := fillField_run program agree place here owner table field done olds old
      rw [fields_cons]
      cases reading : readField program heap reads owner table field old with
      | error refusal =>
        rw [reading] at first
        exact first.stopped _
      | ok value =>
        rw [reading] at first
        have later := ih (done ++ [value]) olds
        rw [List.length_append, List.length_singleton, List.append_assoc] at later
        have joined := Ends.followed first later
        cases remaining : Decode.fields program heap reads owner table rest olds with
        | error refusal =>
          rw [remaining] at joined
          exact joined
        | ok values =>
          rw [remaining] at joined
          show Ends _ state _ (.ok (.struct (done ++ value :: values)))
          rw [List.append_cons done value values]
          exact joined

end

/-- Filling a struct is reading it and writing what was read. -/
theorem fillStruct_run (registry : RegistryId) (depth : Nat) :
    FillsStructs heap (fillStruct program registry depth)
      (Decode.struct program heap registry depth) := by
  induction depth with
  | zero =>
    intro σ id ref place state here
    rw [fillStruct, fillStructWith, run_bind_of_ok (run_get state), here]
    unfold Decode.struct
    cases wrapped : heap.wrapped? ref with
    | some pair =>
      simp only [wrapped]
      split <;> rfl
    | none =>
      simp only [wrapped]
      cases heap.dict? ref <;> rfl
  | succ depth ih =>
    intro σ id ref place state here
    rw [fillStruct, fillStructWith, run_bind_of_ok (run_get state), here]
    unfold Decode.struct
    cases wrapped : heap.wrapped? ref with
    | some pair =>
      simp only [wrapped]
      split <;> rfl
    | none =>
      simp only [wrapped]
      cases table : heap.dict? ref with
      | none => rfl
      | some dict =>
        dsimp only
        rw [run_bind_of_ok (run_get state)]
        cases old : place.read state with
        | struct olds =>
          exact store_temporary_run place (fillFields_run program ih place here
            (program.struct id).name dict (program.struct id).fields [] olds)
        | _ =>
          exact store_temporary_run place (fillFields_lacking place state (program.struct id).name
            dict (program.struct id).fields 0 fun _ _ => rfl)

/-- Filling a place writes the value that an object is read as, at once and as
the last step; where the object is refused nothing has been written. -/
theorem fill_run (registry : RegistryId) (type : HostType) {σ : Type} (ref : Ref)
    (place : Cursor σ) (state : σ) :
    (fill program registry type ref place).run state =
      place.outcome state
        (Decode.value program (place.heap state) registry type ref (place.read state)) := by
  rw [fill, run_bind_of_ok (run_get state)]
  exact fillWith_run (fillStruct_run registry _) type σ ref place state rfl

end Decode

end HostBridge
