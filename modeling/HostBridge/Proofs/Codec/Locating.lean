import HostBridge.Proofs.Codec.Destination
import HostBridge.Proofs.Codec.Reading
import HostBridge.Sample.Program

/-!
# Where a conversion fails

The parts of an object are converted one after the other: items from the left to the right, entries
in the order of the dict, the key of each before its value.  A part has a place, which is how one
comes to it: to the item at a position, to a key, to the value under a key.  A box or an optional is
at the place of what it holds.

`Decode.places` lists all places of an object as a type makes them out, in the order in which they
are converted.  `Decode.walk` is the decoder with a log of the conversions that it begins.  If it
refuses an object, then the log goes up to one place of the list and no further, what has come before
is in order, and the error is the one that this place gives on its own, reported from there.
-/

namespace HostBridge

/-- A step from an object to a part of it. -/
inductive Hop where
  | item (index : Nat)
  | key (name : Ref)
  | entry (name : Ref)
  deriving DecidableEq, Repr

/-- How a step is reported; keys go by their text. -/
def Hop.text (heap : Heap) : Hop → String
  | item index => s!"[{index}]"
  | key name => s!"key {heap.text name}"
  | entry name => s!"[{heap.text name}]"

/-- What is to be converted at a place: an object, as a value of a type, into an old value. -/
structure Place where
  path : List Hop
  type : HostType
  ref : Ref
  old : HostValue

namespace ConversionError

/-- An error that is not reported from inside of an object. -/
def Plain : ConversionError → Prop
  | nested _ _ => False
  | _ => True

/-- An error as it is reported from a place. -/
def reported (heap : Heap) (path : List Hop) (leaf : ConversionError) : ConversionError :=
  path.foldr (fun hop cause => .nested (hop.text heap) cause) leaf

theorem reported_cons (heap : Heap) (hop : Hop) (path : List Hop) (leaf : ConversionError) :
    leaf.reported heap (hop :: path) = .nested (hop.text heap) (leaf.reported heap path) := rfl

end ConversionError

/-- Steps of a conversion that log the places that they come to. -/
abbrev Walk (α : Type) := Filling (List Place) α

namespace Walk

variable {α β ι : Type}

/-- Begin with the conversion at a place. -/
def begin (place : Place) : Walk Unit := modify (· ++ [place])

/-- Convert what cannot be taken apart. -/
def atom (place : Place) (result : Except Refusal HostValue) : Walk HostValue := do
  begin place
  Filling.ofExcept result

/-- Convert a part, and report from there. -/
def inside (heap : Heap) (hop : Hop) (action : Walk α) : Walk α :=
  Filling.reporting (Refusal.within (hop.text heap)) action

end Walk

namespace Decode

open Refusal

section

variable (program : Program) (heap : Heap)

/-- What is in a box, if it is one. -/
def pointee : HostValue → HostValue
  | .boxed inner => inner
  | other => other

mutual

/-- The places of an object that a type makes out, those inside of a place right after it. -/
def places : HostType → List Hop → Ref → HostValue → List Place
  | .seq element, path, ref, old =>
    ⟨path, .seq element, ref, old⟩ ::
      match heap.items? ref with
      | none => []
      | some items => items.zipIdx.flatMap fun (item, index) =>
        places element (path ++ [.item index]) item (program.zero element)
  | .map order key value, path, ref, old =>
    ⟨path, .map order key value, ref, old⟩ ::
      match heap.dict? ref with
      | none => []
      | some table => table.entries.flatMap fun entry =>
        places key (path ++ [.key entry.key]) entry.key (program.zero key) ++
          places value (path ++ [.entry entry.key]) entry.value (program.zero value)
  | .boxed element, path, ref, old =>
    ⟨path, .boxed element, ref, old⟩ :: places element path ref (pointee old)
  | .optional element, path, ref, old =>
    ⟨path, .optional element, ref, old⟩ ::
      if heap.isNone ref then [] else places element path ref (program.zero element)
  | .tuple elements, path, ref, old =>
    ⟨path, .tuple elements, ref, old⟩ ::
      match heap.items? ref with
      | none => []
      | some items =>
        if items.length = elements.length then componentPlaces elements path items 0 else []
  | type, path, ref, old => [⟨path, type, ref, old⟩]

/-- The places of the items of a tuple, the first of which has a given position. -/
def componentPlaces : List HostType → List Hop → List Ref → Nat → List Place
  | type :: types, path, item :: items, index =>
    places type (path ++ [.item index]) item (program.zero type) ++
      componentPlaces types path items (index + 1)
  | _, _, _, _ => []

end

mutual

/-- Read an object as a value of a type, with a log of what is converted. -/
def walkWith (structs : Structs) : HostType → List Hop → Ref → HostValue → Walk HostValue
  | .seq element, path, ref, old => do
    Walk.begin ⟨path, .seq element, ref, old⟩
    match heap.items? ref with
    | none => Filling.ofExcept (mismatch heap "list" ref)
    | some items =>
      let values ← items.zipIdx.mapM fun (item, index) =>
        Walk.inside heap (.item index) <|
          walkWith structs element (path ++ [.item index]) item (program.zero element)
      return .seq values
  | .map order key value, path, ref, old => do
    Walk.begin ⟨path, .map order key value, ref, old⟩
    match heap.dict? ref with
    | none => Filling.ofExcept (mismatch heap "dict" ref)
    | some table =>
      let entries ← table.entries.foldlM (fun entries entry => do
        let made ← Walk.inside heap (.key entry.key) <|
          walkWith structs key (path ++ [.key entry.key]) entry.key (program.zero key)
        let content ← Walk.inside heap (.entry entry.key) <|
          walkWith structs value (path ++ [.entry entry.key]) entry.value (program.zero value)
        return HostValue.insertEntry made content entries) []
      return .map entries
  | .boxed element, path, ref, old => do
    Walk.begin ⟨path, .boxed element, ref, old⟩
    return .boxed (← walkWith structs element path ref (pointee old))
  | .optional element, path, ref, old => do
    Walk.begin ⟨path, .optional element, ref, old⟩
    if heap.isNone ref then return .absent
    else return .present (← walkWith structs element path ref (program.zero element))
  | .tuple elements, path, ref, old => do
    Walk.begin ⟨path, .tuple elements, ref, old⟩
    match heap.items? ref with
    | some items =>
      if items.length = elements.length then
        return .tuple (← walkComponents structs elements path items 0)
      else Filling.ofExcept (mismatch heap s!"tuple of {elements.length}" ref)
    | none => Filling.ofExcept (mismatch heap s!"tuple of {elements.length}" ref)
  -- What is left is read as a whole.
  | type, path, ref, old =>
    Walk.atom ⟨path, type, ref, old⟩ (valueWith program heap structs type ref old)

/-- Read the items of a tuple, the first of which has a given position, with a log. -/
def walkComponents (structs : Structs) :
    List HostType → List Hop → List Ref → Nat → Walk (List HostValue)
  | type :: types, path, item :: items, index => do
    let value ← Walk.inside heap (.item index) <|
      walkWith structs type (path ++ [.item index]) item (program.zero type)
    return value :: (← walkComponents structs types path items (index + 1))
  | _, _, _, _ => return []

end

/-- Read an object as a value of a type, with a log of what is converted. -/
def walk (registry : RegistryId) (type : HostType) (ref : Ref) (old : HostValue) : Walk HostValue :=
  walkWith program heap (struct program heap registry (depth program heap)) type [] ref old

/-- The conversion at a place on its own. -/
def at? (structs : Structs) (place : Place) : Except Refusal HostValue :=
  valueWith program heap structs place.type place.ref place.old

end

/-! ## What the log says -/

variable {program : Program} {heap : Heap} {structs : Structs} {α β ι : Type}

/-- How structs may be refused: plainly, and whatever they are to be merged into. -/
def Structs.Blunt (structs : Structs) : Prop :=
  ∀ id ref old cause, structs id ref old = .error (.error cause) →
    cause.Plain ∧ ∀ other, structs id ref other = .error (.error cause)

variable (program heap structs) in
/-- An error comes from the last place that was begun, to which `inner` leads.  What was begun
before is in order, or it is refused because the last place is inside of it. -/
structure StopsAt (root : List Hop) (all begun front : List Place) (place : Place)
    (inner : List Hop) (leaf cause : ConversionError) : Prop where
  among : ∃ back, all = front ++ place :: back
  last : begun = front ++ [place]
  path : place.path = root ++ inner
  cause : cause = leaf.reported heap inner
  plain : leaf.Plain
  alone : ∀ old, at? program heap structs { place with old } = .error (.error leaf)
  before : ∀ earlier ∈ front, (∃ value, at? program heap structs earlier = .ok value) ∨
    ∃ between, place.path = earlier.path ++ between ∧
      at? program heap structs earlier = .error (.error (leaf.reported heap between))

variable (program heap structs) in
/-- What has been begun among some places, by how the conversion ends. -/
structure Accounts (root : List Hop) (all begun : List Place) (result : Except Refusal α) : Prop where
  ok : ∀ value, result = .ok value → begun = all ∧
    ∀ place ∈ all, ∃ value, at? program heap structs place = .ok value
  error : ∀ cause, result = .error (.error cause) →
    ∃ front place inner leaf, StopsAt program heap structs root all begun front place inner leaf cause

variable (program heap structs) in
/-- A walk comes to a result and logs what it begins, among some places. -/
def Walks (action : Walk α) (root : List Hop) (all : List Place) (result : Except Refusal α) : Prop :=
  ∃ begun, (∀ log, action.run log = (result, log ++ begun)) ∧
    Accounts program heap structs root all begun result

namespace StopsAt

variable {root : List Hop} {all more begun front : List Place} {place : Place} {inner : List Hop}
  {leaf cause : ConversionError}

/-- Places that come later are not begun. -/
theorem append (stops : StopsAt program heap structs root all begun front place inner leaf cause) :
    StopsAt program heap structs root (all ++ more) begun front place inner leaf cause := by
  obtain ⟨back, split⟩ := stops.among
  exact { stops with among := ⟨back ++ more, by simp [split]⟩ }

/-- Places that have come earlier are in order. -/
theorem after (stops : StopsAt program heap structs root more begun front place inner leaf cause)
    (settled : ∀ place ∈ all, ∃ value, at? program heap structs place = .ok value) :
    StopsAt program heap structs root (all ++ more) (all ++ begun) (all ++ front) place inner leaf
      cause := by
  obtain ⟨back, split⟩ := stops.among
  refine { stops with among := ⟨back, by simp [split]⟩, last := by simp [stops.last], before := ?_ }
  intro earlier member
  rcases List.mem_append.mp member with early | late
  · exact .inl (settled earlier early)
  · exact stops.before earlier late

/-- Seen from outside, the place is one step further. -/
theorem within {hop : Hop}
    (stops : StopsAt program heap structs (root ++ [hop]) all begun front place inner leaf cause) :
    StopsAt program heap structs root all begun front place (hop :: inner) leaf
      (.nested (hop.text heap) cause) :=
  { stops with
    path := by rw [stops.path, List.append_assoc, List.singleton_append]
    cause := by rw [stops.cause, ConversionError.reported_cons] }

/-- What the place is inside of has been begun before, and is refused for it. -/
theorem around {whole : Place}
    (stops : StopsAt program heap structs whole.path all begun front place inner leaf cause)
    (same : at? program heap structs whole = .error (.error cause)) :
    StopsAt program heap structs whole.path (whole :: all) (whole :: begun) (whole :: front) place
      inner leaf cause := by
  obtain ⟨back, split⟩ := stops.among
  refine { stops with among := ⟨back, by simp [split]⟩, last := by simp [stops.last], before := ?_ }
  intro earlier member
  rcases List.mem_cons.mp member with rfl | later
  · exact .inr ⟨inner, stops.path, by rw [same, stops.cause]⟩
  · exact stops.before earlier later

end StopsAt

namespace Walks

variable {root : List Hop} {all more : List Place}

theorem pure (value : α) : Walks program heap structs (Pure.pure value) root [] (.ok value) :=
  ⟨[], fun log => by rw [List.append_nil]; rfl, fun _ _ => ⟨rfl, by simp⟩, fun _ same => by cases same⟩

/-- What comes second is not begun if what comes first is refused. -/
theorem bind {first : Walk α} {next : α → Walk β} {result : Except Refusal α}
    {later : α → Except Refusal β} (begins : Walks program heap structs first root all result)
    (continues : ∀ value, result = .ok value →
      Walks program heap structs (next value) root more (later value)) :
    Walks program heap structs (first >>= next) root (all ++ more) (result >>= later) := by
  obtain ⟨begun, ran, accounts⟩ := begins
  cases result with
  | error refusal =>
    refine ⟨begun, fun log => Operation.run_bind_of_error (ran log) next, ?_, ?_⟩
    · intro value same
      cases same
    · intro cause same
      cases same
      obtain ⟨front, place, inner, leaf, stops⟩ := accounts.error cause rfl
      exact ⟨front, place, inner, leaf, stops.append⟩
  | ok value =>
    obtain ⟨begun', ran', accounts'⟩ := continues value rfl
    obtain ⟨rfl, settled⟩ := accounts.ok value rfl
    refine ⟨begun ++ begun', fun log => ?_, ?_, ?_⟩
    · rw [Operation.run_bind_of_ok (ran log), ran', List.append_assoc]
      rfl
    · intro final same
      obtain ⟨rfl, settled'⟩ := accounts'.ok final same
      refine ⟨rfl, fun place member => ?_⟩
      rcases List.mem_append.mp member with early | late
      · exact settled place early
      · exact settled' place late
    · intro cause same
      obtain ⟨front, place, inner, leaf, stops⟩ := accounts'.error cause same
      exact ⟨begun ++ front, place, inner, leaf, stops.after settled⟩

/-- A result is put together. -/
theorem map {action : Walk α} {result : Except Refusal α} (make : α → β)
    (walks : Walks program heap structs action root all result) :
    Walks program heap structs (do return make (← action)) root all (do return make (← result)) := by
  have made : Walks program heap structs (action >>= fun value => Pure.pure (make value)) root
      (all ++ []) (result >>= fun value => Pure.pure (make value)) :=
    walks.bind fun value _ => .pure (make value)
  rwa [List.append_nil] at made

/-- A part is reported from its place. -/
theorem within {action : Walk α} {result : Except Refusal α} {hop : Hop}
    (walks : Walks program heap structs action (root ++ [hop]) all result) :
    Walks program heap structs (Walk.inside heap hop action) root all
      (Refusal.within (hop.text heap) result) := by
  obtain ⟨begun, ran, accounts⟩ := walks
  refine ⟨begun, fun log => ?_, ?_, ?_⟩
  · rw [Walk.inside, Filling.reporting_run, ran]
  · intro value same
    exact accounts.ok value (eq_ok_of_within same)
  · intro cause same
    cases result with
    | ok value => cases same
    | error refusal =>
      cases refusal with
      | error inner =>
        cases same
        obtain ⟨front, place, path, leaf, stops⟩ := accounts.error inner rfl
        exact ⟨front, place, hop :: path, leaf, stops.within⟩
      | panic => cases same
      | tooDeep => cases same

/-- A place is begun before the places inside of it. -/
theorem around {place : Place} {rest : Walk HostValue} {result : Except Refusal HostValue}
    (walks : Walks program heap structs rest place.path all result)
    (same : at? program heap structs place = result) :
    Walks program heap structs (do Walk.begin place; rest) place.path (place :: all) result := by
  obtain ⟨begun, ran, accounts⟩ := walks
  refine ⟨place :: begun, fun log => ?_, ?_, ?_⟩
  · have began : (Walk.begin place).run log = (.ok (), log ++ [place]) := rfl
    rw [Operation.run_bind_of_ok began, ran, List.append_assoc, List.singleton_append]
  · rintro value rfl
    obtain ⟨rfl, settled⟩ := accounts.ok value rfl
    exact ⟨rfl, List.forall_mem_cons.mpr ⟨⟨value, same⟩, settled⟩⟩
  · rintro cause rfl
    obtain ⟨front, inside, inner, leaf, stops⟩ := accounts.error cause rfl
    exact ⟨place :: front, inside, inner, leaf, stops.around same⟩

/-- A place without parts gives its own error. -/
theorem atom {place : Place} {result : Except Refusal HostValue}
    (same : at? program heap structs place = result)
    (blunt : ∀ cause, result = .error (.error cause) → cause.Plain ∧
      ∀ old, at? program heap structs { place with old } = result) :
    Walks program heap structs (Walk.atom place result) place.path [place] result := by
  refine ⟨[place], fun log => rfl, ?_, ?_⟩
  · rintro value rfl
    exact ⟨rfl, List.forall_mem_singleton.mpr ⟨value, same⟩⟩
  · rintro cause rfl
    obtain ⟨plain, alone⟩ := blunt cause rfl
    exact ⟨[], place, [], cause, ⟨[], rfl⟩, rfl, (List.append_nil _).symm, rfl, plain, alone, by simp⟩

/-! ### Rows -/

/-- Items are converted in a row, up to the first that is refused. -/
theorem mapM {items : List ι} {action : ι → Walk β} {inner : ι → List Place}
    {result : ι → Except Refusal β}
    (each : ∀ item, Walks program heap structs (action item) root (inner item) (result item)) :
    Walks program heap structs (items.mapM action) root (items.flatMap inner) (items.mapM result) := by
  induction items with
  | nil => exact .pure []
  | cons item items ih =>
    rw [List.mapM_cons, List.mapM_cons, List.flatMap_cons]
    exact (each item).bind fun value _ => ih.map (value :: ·)

/-- Entries are entered in a row, up to the first that is refused. -/
theorem foldlM {items : List ι} {action : α → ι → Walk α} {inner : ι → List Place}
    {result : α → ι → Except Refusal α}
    (each : ∀ made item,
      Walks program heap structs (action made item) root (inner item) (result made item))
    (start : α) : Walks program heap structs (items.foldlM action start) root (items.flatMap inner)
      (items.foldlM result start) := by
  induction items generalizing start with
  | nil => exact .pure start
  | cons item items ih =>
    rw [List.foldlM_cons, List.foldlM_cons, List.flatMap_cons]
    exact (each start item).bind fun made _ => ih made

/-- What has the wrong kind has no parts. -/
theorem mismatched {place : Place} {expected : String}
    (refused : ∀ old, at? program heap structs { place with old } = mismatch heap expected place.ref) :
    Walks program heap structs 
      (do Walk.begin place; Filling.ofExcept (mismatch heap expected place.ref : Except Refusal HostValue))
      place.path [place] (mismatch heap expected place.ref) := by
  refine .atom (refused place.old) fun cause same => ?_
  cases same
  exact ⟨trivial, refused⟩

end Walks

/-! ## Walking by a type -/

variable (program heap structs) in
/-- Walking by a type logs the places that the type makes out, and comes to what decoding comes to. -/
def WalksBy (type : HostType) : Prop :=
  ∀ (path : List Hop) (ref : Ref) (old : HostValue),
    Walks program heap structs (walkWith program heap structs type path ref old) path
      (places program heap type path ref old) (valueWith program heap structs type ref old)

variable (program heap structs) in
/-- The same for the items of a tuple. -/
def WalksAlong (types : List HostType) : Prop :=
  ∀ (path : List Hop) (items : List Ref) (index : Nat),
    Walks program heap structs (walkComponents program heap structs types path items index) path
      (componentPlaces program heap types path items index)
      (elementsWith program heap structs types items index)

/-- What is read as a whole is refused plainly, and whatever it is to be merged into. -/
theorem walksBy_whole {type : HostType}
    (whole : ∀ path ref old, walkWith program heap structs type path ref old =
      Walk.atom ⟨path, type, ref, old⟩ (valueWith program heap structs type ref old))
    (single : ∀ path ref old, places program heap type path ref old = [⟨path, type, ref, old⟩])
    (blunt : ∀ ref old cause, valueWith program heap structs type ref old = .error (.error cause) →
      cause.Plain ∧ ∀ other, valueWith program heap structs type ref other = .error (.error cause)) :
    WalksBy program heap structs type := by
  intro path ref old
  rw [whole, single]
  refine .atom rfl fun cause refused => ?_
  obtain ⟨plain, always⟩ := blunt ref old cause refused
  exact ⟨plain, fun other => (always other).trans refused.symm⟩

theorem walksBy_seq {element : HostType} (inner : WalksBy program heap structs element) :
    WalksBy program heap structs (.seq element) := by
  intro path ref old
  rw [walkWith, places]
  cases listed : heap.items? ref with
  | none =>
    have refused : ∀ other, valueWith program heap structs (.seq element) ref other =
        mismatch heap "list" ref := by
      intro other
      rw [valueWith, listed]
    rw [refused]
    exact .mismatched refused
  | some items =>
    refine .around ?_ rfl
    rw [valueWith, listed]
    refine .map HostValue.seq (.mapM fun entry => ?_)
    exact (inner (path ++ [.item entry.2]) entry.1 (program.zero element)).within

theorem walksBy_map {order : MapOrder} {key value : HostType}
    (keys : WalksBy program heap structs key) (values : WalksBy program heap structs value) :
    WalksBy program heap structs (.map order key value) := by
  intro path ref old
  rw [walkWith, places]
  cases filed : heap.dict? ref with
  | none =>
    have refused : ∀ other, valueWith program heap structs (.map order key value) ref other =
        mismatch heap "dict" ref := by
      intro other
      rw [valueWith, filed]
    rw [refused]
    exact .mismatched refused
  | some table =>
    refine .around ?_ rfl
    rw [valueWith, filed]
    refine .map HostValue.map (.foldlM (fun entries entry => ?_) [])
    refine (keys _ entry.key _).within.bind fun made _ => ?_
    exact (values _ entry.value _).within.map fun content =>
      HostValue.insertEntry made content entries

/-- A box is read as what it holds. -/
theorem valueWith_boxed (element : HostType) (ref : Ref) (old : HostValue) :
    valueWith program heap structs (.boxed element) ref old = do
      return .boxed (← valueWith program heap structs element ref (pointee old)) := rfl

theorem walksBy_boxed {element : HostType} (inner : WalksBy program heap structs element) :
    WalksBy program heap structs (.boxed element) := by
  intro path ref old
  rw [walkWith, places]
  refine .around ?_ rfl
  rw [valueWith_boxed]
  exact (inner path ref (pointee old)).map HostValue.boxed

theorem walksBy_optional {element : HostType} (inner : WalksBy program heap structs element) :
    WalksBy program heap structs (.optional element) := by
  intro path ref old
  rw [walkWith, places]
  refine .around ?_ rfl
  rw [valueWith]
  by_cases missing : heap.isNone ref = true
  · rw [if_pos missing, if_pos missing, if_pos missing]
    exact .pure HostValue.absent
  · rw [if_neg missing, if_neg missing, if_neg missing]
    exact (inner path ref (program.zero element)).map HostValue.present

theorem walksBy_tuple {elements : List HostType} (row : WalksAlong program heap structs elements) :
    WalksBy program heap structs (.tuple elements) := by
  intro path ref old
  rw [walkWith, places]
  cases listed : heap.items? ref with
  | none =>
    have refused : ∀ other, valueWith program heap structs (.tuple elements) ref other =
        mismatch heap s!"tuple of {elements.length}" ref := by
      intro other
      rw [valueWith, listed]
    rw [refused]
    exact .mismatched refused
  | some items =>
    by_cases matching : items.length = elements.length
    · refine .around ?_ rfl
      rw [valueWith, listed]
      simp only [if_pos matching]
      exact (row path items 0).map HostValue.tuple
    · have refused : ∀ other, valueWith program heap structs (.tuple elements) ref other =
          mismatch heap s!"tuple of {elements.length}" ref := by
        intro other
        rw [valueWith, listed]
        exact if_neg matching
      rw [refused]
      simp only [if_neg matching]
      exact .mismatched refused

theorem walksAlong_nil : WalksAlong program heap structs [] :=
  fun _ _ _ => .pure []

theorem walksAlong_cons {type : HostType} {types : List HostType}
    (first : WalksBy program heap structs type) (row : WalksAlong program heap structs types) :
    WalksAlong program heap structs (type :: types) := by
  intro path items index
  cases items with
  | nil => exact .pure []
  | cons item items =>
    rw [walkComponents, componentPlaces, elementsWith]
    refine (first (path ++ [.item index]) item (program.zero type)).within.bind fun value _ => ?_
    exact (row path items (index + 1)).map (value :: ·)

/-! ### What has no parts -/

/-- Whether the objects of a type have no parts that are converted. -/
def Single : HostType → Prop
  | .seq _ | .map _ _ _ | .boxed _ | .optional _ | .tuple _ | .struct _ => False
  | _ => True

/-- An object that is not understood is a mismatch. -/
theorem plain_of_mismatch {expected : String} {ref : Ref} {cause : ConversionError}
    (refused : (mismatch heap expected ref : Except Refusal α) = .error (.error cause)) :
    cause.Plain := by
  cases refused
  trivial

/-- What has no parts is refused plainly. -/
theorem plain_of_single {type : HostType} (single : Single type) {ref : Ref} {old : HostValue}
    {cause : ConversionError}
    (refused : valueWith program heap structs type ref old = .error (.error cause)) :
    cause.Plain := by
  cases type with
  | int kind =>
    rw [valueWith] at refused
    split at refused
    · split at refused
      · cases refused
      · cases refused
        trivial
    · exact plain_of_mismatch refused
  | unit | bool | text | bytes | keywords =>
    rw [valueWith] at refused
    split at refused
    · cases refused
    · exact plain_of_mismatch refused
  | float width | complex width =>
    unfold valueWith at refused
    split at refused
    · cases refused
    · cases refused
    · exact plain_of_mismatch refused
  | object =>
    rw [valueWith] at refused
    cases refused
  | sealed id =>
    rw [valueWith] at refused
    cases refused
  | seq | map | boxed | optional | tuple | struct => exact single.elim

/-- A field that is refused is a misuse. -/
theorem readField_ne_error {owner : String} {table : Dict} (field : FieldDecl) (old : HostValue)
    (cause : ConversionError) :
    readField program heap structs owner table field old ≠ .error (.error cause) := by
  intro refused
  rw [readField] at refused
  split at refused
  · unfold refusedField at refused
    split at refused
    · cases refused
    · next unlike => exact unlike cause refused
  · cases refused

theorem fields_ne_error {owner : String} {table : Dict} (decls : List FieldDecl)
    (olds : List HostValue) (cause : ConversionError) :
    fields program heap structs owner table decls olds ≠ .error (.error cause) := by
  induction decls generalizing olds with
  | nil => simp [fields]
  | cons field rest ih =>
    cases olds with
    | nil => simp [fields]
    | cons old olds =>
      rw [fields_cons]
      cases read : readField program heap structs owner table field old with
      | error refusal =>
        intro refused
        cases refused
        exact readField_ne_error field old cause read
      | ok value =>
        cases others : fields program heap structs owner table rest olds with
        | error refusal =>
          intro refused
          cases refused
          exact ih olds others
        | ok values =>
          intro refused
          cases refused

/-- Structs are refused plainly: what is inside of them is reported as a misuse. -/
theorem blunt_struct (registry : RegistryId) (depth : Nat) :
    (struct program heap registry depth).Blunt := by
  intro id ref old cause refused
  cases wrapped : heap.wrapped? ref with
  | some found =>
    have same : ∀ other, struct program heap registry depth id ref other = _ :=
      struct_of_wrapped wrapped depth
    rw [same] at refused
    refine ⟨?_, fun other => (same other).trans refused⟩
    split at refused
    · cases refused
    · cases refused
      trivial
  | none =>
    cases body : heap.dict? ref with
    | none =>
      have same : ∀ other, struct program heap registry depth id ref other =
          mismatch heap (program.struct id).name ref := by
        intro other
        unfold struct
        rw [wrapped, body]
      rw [same] at refused
      exact ⟨plain_of_mismatch refused, fun other => (same other).trans refused⟩
    | some table =>
      -- Whatever is in the dict, no error comes from it.
      have never : ∀ other, struct program heap registry depth id ref other ≠
          .error (.error cause) := by
        intro other refused
        unfold struct at refused
        rw [wrapped, body] at refused
        cases depth with
        | zero => cases refused
        | succ depth =>
          dsimp only at refused
          split at refused
          · next olds =>
            cases read : fields program heap (struct program heap registry depth)
                (program.struct id).name table (program.struct id).fields olds with
            | error refusal =>
              rw [read] at refused
              cases refused
              exact fields_ne_error _ _ cause read
            | ok values =>
              rw [read] at refused
              cases refused
          · cases refused
      exact (never old refused).elim

mutual

/-- Decoding gives account of where it stops. -/
theorem walksBy (blunt : structs.Blunt) : ∀ type : HostType, WalksBy program heap structs type
  | .seq element => walksBy_seq (walksBy blunt element)
  | .map _ key value => walksBy_map (walksBy blunt key) (walksBy blunt value)
  | .struct id => walksBy_whole (fun _ _ _ => rfl) (fun _ _ _ => rfl) fun ref old cause refused =>
    blunt id ref old cause refused
  | .boxed element => walksBy_boxed (walksBy blunt element)
  | .optional element => walksBy_optional (walksBy blunt element)
  | .tuple elements => walksBy_tuple (walksAlong blunt elements)
  | .unit | .bool | .int _ | .float _ | .complex _ | .text | .bytes | .object | .keywords
  | .sealed _ => walksBy_whole (fun _ _ _ => rfl) (fun _ _ _ => rfl) fun _ _ _ refused =>
    ⟨plain_of_single (by trivial) refused, fun _ => refused⟩

theorem walksAlong (blunt : structs.Blunt) :
    ∀ types : List HostType, WalksAlong program heap structs types
  | [] => walksAlong_nil
  | type :: types => walksAlong_cons (walksBy blunt type) (walksAlong blunt types)

end

/-- The log changes nothing: a walk comes to what decoding comes to. -/
theorem walk_run (registry : RegistryId) (type : HostType) (ref : Ref) (old : HostValue)
    (log : List Place) :
    ((walk program heap registry type ref old).run log).1 =
      value program heap registry type ref old := by
  have blunt : (struct program heap registry (depth program heap)).Blunt := blunt_struct registry _
  obtain ⟨begun, ran, accounts⟩ := walksBy blunt type [] ref old
  exact congrArg Prod.fst (ran log)

/-- A conversion that is refused stops at one place of the object, and nothing that comes later is
converted.  The error is the one that this place gives on its own, whatever it would be merged into,
reported from there.  What comes before can be converted, or holds this place and is refused for
it. -/
theorem error_points_at_first_failure {registry : RegistryId} {type : HostType} {ref : Ref}
    {old : HostValue} {cause : ConversionError}
    (refused : value program heap registry type ref old = .error (.error cause)) :
    ∃ front place back leaf,
      places program heap type [] ref old = front ++ place :: back ∧
      (∀ log, (walk program heap registry type ref old).run log =
        (value program heap registry type ref old, log ++ (front ++ [place]))) ∧
      cause = leaf.reported heap place.path ∧ leaf.Plain ∧
      (∀ other, value program heap registry place.type place.ref other = .error (.error leaf)) ∧
      ∀ earlier ∈ front,
        (∃ result, value program heap registry earlier.type earlier.ref earlier.old = .ok result) ∨
        ∃ between, place.path = earlier.path ++ between ∧
          value program heap registry earlier.type earlier.ref earlier.old =
            .error (.error (leaf.reported heap between)) := by
  have blunt : (struct program heap registry (depth program heap)).Blunt := blunt_struct registry _
  obtain ⟨begun, ran, accounts⟩ := walksBy blunt type [] ref old
  obtain ⟨front, place, inner, leaf, stops⟩ := accounts.error cause refused
  obtain ⟨back, among⟩ := stops.among
  have here : place.path = inner := stops.path
  refine ⟨front, place, back, leaf, among, fun log => ?_, ?_, stops.plain, stops.alone, stops.before⟩
  · rw [← stops.last]
    exact ran log
  · rw [here]
    exact stops.cause

/-- A list of three lists, the second of which has a second item that is too large for a byte. -/
def listOfLists : Heap :=
  ⟨Heap.initial.cells ++ #[some ⟨3, .int 5⟩, some ⟨1, .int 300⟩, some ⟨2, .list [⟨3⟩]⟩,
    some ⟨1, .list [⟨3⟩, ⟨4⟩]⟩, some ⟨1, .list [⟨5⟩, ⟨6⟩, ⟨5⟩]⟩]⟩

/-- The third list is not converted. -/
theorem error_points_at_second_list :
    let program := Sample.program fun _ => ""
    let type := HostType.seq (.seq (.int .u8))
    let cause := ConversionError.nested "[1]" (.nested "[1]" (.outOfRange 300 .u8))
    value program listOfLists ⟨0⟩ type ⟨7⟩ (.seq []) = .error (.error cause) ∧
      ∃ front place back leaf,
        places program listOfLists type [] ⟨7⟩ (.seq []) = front ++ place :: back ∧
        (∀ log, (walk program listOfLists ⟨0⟩ type ⟨7⟩ (.seq [])).run log =
          (value program listOfLists ⟨0⟩ type ⟨7⟩ (.seq []), log ++ (front ++ [place]))) ∧
        cause = leaf.reported listOfLists place.path ∧ leaf.Plain ∧
        (∀ other, value program listOfLists ⟨0⟩ place.type place.ref other =
          .error (.error leaf)) ∧
        ∀ earlier ∈ front,
          (∃ result, value program listOfLists ⟨0⟩ earlier.type earlier.ref earlier.old =
            .ok result) ∨
          ∃ between, place.path = earlier.path ++ between ∧
            value program listOfLists ⟨0⟩ earlier.type earlier.ref earlier.old =
              .error (.error (leaf.reported listOfLists between)) := by
  intro program type cause
  have refused : value program listOfLists ⟨0⟩ type ⟨7⟩ (.seq []) = .error (.error cause) := by
    rfl
  exact ⟨refused, error_points_at_first_failure refused⟩

end Decode

end HostBridge
