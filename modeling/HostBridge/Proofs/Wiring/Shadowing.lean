import HostBridge.Proofs.Codec.Naming
import HostBridge.Proofs.Publishing.Acceptance
import HostBridge.Proofs.Publishing.Closure
import HostBridge.Proofs.Wiring.Wired

/-!
# Exports that are shadowed

Runtime code finds what a struct exports by name, and what it finds is the first export of the
name: fields come before methods, and both in the order of their declarations.  So an export
is out of reach if an earlier one has its name.  Two declared names may well have one name in
snake case, and a registration does not look at the names that it exposes.

All exports are found if and only if their names differ.
-/

namespace HostBridge

open Op

/-- An export of a struct: a field or a method, by its place among all of them. -/
inductive Member where
  | field (index : Nat)
  | method (index : Nat)
  deriving DecidableEq

/-! ## Looking up -/

section

variable {α : Type} {entries : List (String × α)}

/-- The item that is found is the first one of a name. -/
theorem lookup_map_pair {β : Type} (name : β → String) (item : β → α) (items : List β)
    (wanted : String) :
    (items.map fun one => (name one, item one)).lookup wanted =
      (items.find? fun one => name one = wanted).map item := by
  induction items with
  | nil => rfl
  | cons one rest ih =>
    rw [List.map_cons, List.lookup_cons, ih]
    by_cases same : wanted = name one
    · rw [List.find?_cons_of_pos (by simp [same]), same, beq_self_eq_true]
      rfl
    · rw [List.find?_cons_of_neg (by simpa using Ne.symm same), beq_false_of_ne same]

/-- An item that occurs once is found if no earlier one has its name, and then under its name
only. -/
theorem lookup_eq_some_iff_first (once : (entries.map Prod.snd).Nodup) {front back} {name : String}
    {item : α} (split : entries = front ++ (name, item) :: back) (wanted : String) :
    entries.lookup wanted = some item ↔ wanted = name ∧ name ∉ front.map Prod.fst := by
  have member : (name, item) ∈ entries := by
    rw [split]
    exact List.mem_append_right _ List.mem_cons_self
  constructor
  · intro found
    obtain ⟨earlier, later, split', passed⟩ := List.lookup_eq_some_iff.mp found
    have member' : (wanted, item) ∈ entries := by
      rw [split']
      exact List.mem_append_right _ List.mem_cons_self
    have same : (wanted, item) = (name, item) :=
      List.inj_on_of_nodup_map once member' member rfl
    obtain rfl := congrArg Prod.fst same
    refine ⟨rfl, fun taken => ?_⟩
    rw [split, List.lookup_append] at found
    cases first : front.lookup wanted with
    | none =>
      rw [List.lookup_eq_none_iff] at first
      obtain ⟨entry, inside, rfl⟩ := List.mem_map.mp taken
      exact absurd (first entry inside) (by simp)
    | some other =>
      rw [first, Option.some_or, Option.some.injEq] at found
      subst found
      obtain ⟨before, rest, split'', _⟩ := List.lookup_eq_some_iff.mp first
      rw [split, split'', List.map_append, List.nodup_append'] at once
      have twice : other ∈ (before ++ (wanted, other) :: rest).map Prod.snd := by simp
      exact once.2.2 twice List.mem_cons_self
  · rintro ⟨rfl, fresh⟩
    have passed : front.lookup wanted = none := by
      rw [List.lookup_eq_none_iff]
      intro entry inside
      refine bne_iff_ne.mpr fun same => fresh ?_
      rw [same]
      exact List.mem_map_of_mem inside
    rw [split, List.lookup_append, passed, Option.none_or, List.lookup_cons_self]

/-- All items are found under their names exactly if the names differ. -/
theorem lookup_all_iff (once : (entries.map Prod.snd).Nodup) :
    (∀ entry ∈ entries, entries.lookup entry.1 = some entry.2) ↔
      (entries.map Prod.fst).Nodup := by
  constructor
  · intro found
    refine List.Nodup.map_on (fun entry inside other inside' same => ?_) once.of_map
    refine List.inj_on_of_nodup_map once inside inside' (Option.some.inj ?_)
    rw [← found entry inside, ← found other inside', same]
  · rintro distinct ⟨name, item⟩ inside
    obtain ⟨front, back, split⟩ := List.append_of_mem inside
    refine (lookup_eq_some_iff_first once split name).mpr ⟨rfl, fun taken => ?_⟩
    rw [split, List.map_append, List.nodup_append'] at distinct
    exact distinct.2.2 taken (by simp)

end

namespace Program

variable {program : Program} {id : StructId}

/-! ## Exports -/

/-- What a struct exports with its names, in the order in which names are looked up. -/
def exports (program : Program) (id : StructId) : List (String × Member) :=
  (exportedFields (program.struct id)).map
      (fun one => (Name.snake one.1.name, .field one.2)) ++
    (program.struct id).methods.zipIdx.map fun one => (Name.snake one.1.name, .method one.2)

theorem exports_names (program : Program) (id : StructId) :
    (program.exports id).map Prod.fst = program.exposedNames id := by
  rw [exports, List.map_append, List.map_map, List.map_map, exposedNames]
  congr 1
  conv => rhs; rw [← List.zipIdx_map_fst 0 (program.struct id).methods, List.map_map]
  rfl

/-- No export is listed twice. -/
theorem exports_once (program : Program) (id : StructId) :
    ((program.exports id).map Prod.snd).Nodup := by
  have numbered : ∀ {α : Type} (items : List α), (items.zipIdx.map Prod.snd).Nodup := by
    intro α items
    rw [List.zipIdx_map_snd]
    exact List.nodup_range'
  rw [exports, List.map_append, List.map_map, List.map_map]
  refine List.nodup_append'.mpr ⟨?_, ?_, ?_⟩
  · have places : ((exportedFields (program.struct id)).map Prod.snd).Nodup :=
      (numbered _).sublist (List.filter_sublist.map Prod.snd)
    have fields := places.map fun _ _ => Member.field.inj
    rwa [List.map_map] at fields
  · have methods := (numbered (program.struct id).methods).map fun _ _ => Member.method.inj
    rwa [List.map_map] at methods
  · intro item field method
    obtain ⟨_, _, rfl⟩ := List.mem_map.mp field
    obtain ⟨_, _, same⟩ := List.mem_map.mp method
    cases same

/-- A name leads to a field of that name, and to a method only if there is none. -/
theorem lookup_exports (program : Program) (id : StructId) (name : String) :
    (program.exports id).lookup name = ((program.fieldNamed? id name).map .field).or
      ((program.methodNamed? id name).map .method) := by
  rw [exports, List.lookup_append, lookup_map_pair, lookup_map_pair, fieldNamed?, methodNamed?,
    Option.map_map, Option.map_map]
  rfl

/-! ## Names on a wrapper -/

/-- What a name does on a wrapper, by the export that it leads to.  A field is read and written,
a method is bound, and nothing else can be done. -/
def Offers (program : Program) (world : World) (held : Multiset Ref) (bridged : BridgedType)
    (self : Ref) (name : String) : Option Member → Prop
  | some (.field index) =>
    (∃ slot : Slot, bridged.slots[slot.id]? = some slot ∧ slot.role = .get bridged.host index ∧
      (program.getAttribute self name).run world = (program.readField self slot.id).run world) ∧
    ∃ slot : Slot, bridged.slots[slot.id]? = some slot ∧ slot.role = .set bridged.host index ∧
      ∀ value, (program.setAttribute self name value).run world =
        (program.writeField self value slot.id).run world
  | some (.method index) =>
    program.Binds world held bridged self name index ∧
      ∀ value, (program.setAttribute self name value).run world =
        (.error (.raised (.noAttribute (world.heap.typeName self) name)), world)
  | none =>
    (name ≠ "__class__" → (program.getAttribute self name).run world =
      (.error (.raised (.noAttribute (world.heap.typeName self) name)), world)) ∧
    ∀ value, (program.setAttribute self name value).run world =
      (.error (.raised (.noAttribute (world.heap.typeName self) name)), world)

variable {world : World} {held : Multiset Ref} {self : Ref} {content : Held}
  {bridged : BridgedType} {name : String}

/-- On a wrapper each name does what the first export of that name is for. -/
theorem offers (sound : world.Sound program held)
    (wrapper : world.heap.wrapper? self = some (content, bridged)) (name : String) :
    program.Offers world held bridged self name ((program.exports bridged.host).lookup name) := by
  rw [lookup_exports]
  cases field : program.fieldNamed? bridged.host name with
  | some index =>
    exact ⟨run_getAttribute_field sound.wired wrapper field,
      run_setAttribute_field sound.wired wrapper field⟩
  | none =>
    cases method : program.methodNamed? bridged.host name with
    | some index =>
      exact ⟨binds sound wrapper field method,
        run_setAttribute_of_unnamed sound.wired wrapper field⟩
    | none =>
      exact ⟨(run_getAttribute_of_unnamed sound.wired wrapper field method).2,
        run_setAttribute_of_unnamed sound.wired wrapper field⟩

end Program

/-- What becomes of exports that have one name: the first of them is the one that counts. -/
structure Program.FirstCome (program : Program) (world : World) (held : Multiset Ref) : Prop where
  /-- A registration succeeds whatever the names of fields and methods are. -/
  accepts : ∀ (registration : Registration) id contents, registration.Concerns program id →
    registration.item.Proper program → program.Declared id →
    registration.bridge.registry.number < world.registries.size →
    (world.registry registration.bridge.registry).handle? id = none →
    (program.plan id registration.item.maker).slots.length ≤ slotCapacity →
    world.heap.module? registration.module = some contents →
    contents.globals.lookup registration.name = none →
    (∀ inner, program.Nests id inner →
      inner = id ∨ Program.Knows registration.bridge.registry world inner) →
      ∃ handle after, (registration.run program).run world = (.ok handle, after)
  /-- On a wrapper a name does what the first export of the name is for. -/
  offers : ∀ self content bridged, world.heap.wrapper? self = some (content, bridged) → ∀ name,
    program.Offers world held bridged self name ((program.exports bridged.host).lookup name)
  /-- An export is found if no earlier one has its name, and then under no other name. -/
  first : ∀ id front name item back, program.exports id = front ++ (name, item) :: back →
    ∀ wanted, (program.exports id).lookup wanted = some item ↔
      wanted = name ∧ name ∉ front.map Prod.fst
  /-- All exports are found under their names exactly if the names differ. -/
  all : ∀ id, (∀ entry ∈ program.exports id,
    (program.exports id).lookup entry.1 = some entry.2) ↔ (program.exposedNames id).Nodup
  /-- The dict for a struct that is not registered has an entry for each name, with what was made
  last under it; there is one for each exported field exactly if their names differ. -/
  dicts : ∀ registry id values ref after, (world.registry registry).handle? id = none →
    (HostValue.struct values).fits program (.struct id) = true →
    (∀ ref ∈ (HostValue.struct values).references, ref.place < world.heap.size) →
    (Encode.value program registry (.struct id) (.struct values)).run world = (.ok ref, after) →
      ∃ pairs made table,
        (Encode.fields program registry (program.struct id).fields [] values).run world =
          (.ok pairs, made) ∧
        made.heap.Spells pairs (program.fieldNames id) ∧ after.heap.body ref = .dict table ∧
        (∀ name, table.get? (.text name) =
          ((program.fieldNames id).zip (pairs.map Prod.snd)).reverse.lookup name) ∧
        table.size = (program.fieldNames id).dedup.length ∧
        (table.size = (Program.exportedFields (program.struct id)).length ↔
          (program.fieldNames id).Nodup)

/-- Exports are first come, first served: nothing keeps two of them from having one name, and
then the later one is shadowed, or, in a dict, takes the place of the earlier one. -/
theorem Session.exports_first_come {program : Program} (honest : program.Honest) {world : World}
    {held : Multiset Ref} (session : Session program world held) :
    program.FirstCome world held where
  accepts registration id contents struct proper declared created unknown roomy defined free closed :=
    Registration.exists_run_of_free struct proper declared created
      (session.tidy honest).counted unknown roomy defined free closed
  offers _ _ _ wrapper name := Program.offers (session.sound honest) wrapper name
  first id _ _ _ _ split wanted := lookup_eq_some_iff_first (program.exports_once id) split wanted
  all id := by rw [lookup_all_iff (program.exports_once id), program.exports_names]
  dicts registry id values ref after unregistered fit used ran := by
    obtain ⟨pairs, made, table, listed, spells, reading, found, size⟩ :=
      Encode.names_of_struct (session.sound honest) unregistered fit used ran
    have length : (Program.exportedFields (program.struct id)).length =
        (program.fieldNames id).length := (List.length_map _).symm
    refine ⟨pairs, made, table, listed, spells, reading, found, size, ?_⟩
    rw [size, length, Encode.length_dedup_iff]

namespace Figures

/-- The fields of a twin and its method have one name in snake case. -/
def twin : StructDecl where
  name := "Twin"
  fields := [⟨"fooBar", number, true⟩, ⟨"foo_bar", number, true⟩]
  methods := [⟨"FooBar", "", .shared, [], .unit, fun _ subject _ => .returning subject .unit⟩]

/-- A program with twins. -/
def twins : Program where
  structs := [twin]
  sealedTypes := []
  functions := []
  makers := []
  natives := .absent
  typePath := fun _ => ""

theorem honest_twins : twins.Honest := by
  refine .of_silent ⟨fun _ => 0, fun id field member inner held => ?_⟩ ?_ rfl rfl rfl
  · obtain ⟨index⟩ := id
    match index with
    | 0 =>
      have declared : field ∈ twin.fields := member
      simp only [twin, List.mem_cons, List.not_mem_nil, or_false] at declared
      rcases declared with rfl | rfl <;> cases held
    | index + 1 => cases member
  · intro decl member method inside
    rw [List.mem_singleton.mp member] at inside
    rw [List.mem_singleton.mp inside]
    exact ⟨rfl, rfl⟩

/-- Twins are to be exported. -/
def twinned : Registration := ⟨bridge, .zeroed (.struct ⟨0⟩), ⟨4⟩, "Twin", ""⟩

/-- Requests that export twins and wrap one. -/
def twinning : List Request :=
  .toObject bridge (.struct ⟨0⟩) (.struct [.int 1, .int 2]) ::
    .registerType bridge (.struct ⟨0⟩) ⟨4⟩ "Twin" "" :: moored

set_option maxRecDepth 10000 in
theorem playable_twinning : Request.Playable twins twinning := by
  have registries : (Request.played twins moored).registries.size = 1 := by cbv
  have nothing : ∀ {used : Ref → Prop}, ∀ ref ∈ ([] : List Ref), used ref :=
    fun _ member => by cases member
  refine ⟨⟨playable_moored twins, rfl, nothing, ?_⟩, rfl, nothing, ?_⟩
  · show 0 < (Request.played twins moored).registries.size
    rw [registries]
    exact Nat.zero_lt_one
  · show HostValue.fits twins (.struct ⟨0⟩) (.struct [.int 1, .int 2]) = true
    decide

end Figures

open Figures in
set_option maxRecDepth 10000 in
/-- Twins are registered; on a wrapper the name leads to the first field, and no name leads to the
second one. -/
theorem Session.exports_first_come_twins :
    (∃ handle after, (twinned.run twins).run (Request.played twins moored) = (.ok handle, after)) ∧
    ∃ content bridged held, (Request.played twins twinning).heap.wrapper? ⟨6⟩ =
        some (content, bridged) ∧
      twins.Offers (Request.played twins twinning) held bridged ⟨6⟩ "foo_bar"
        (some (.field 0)) ∧
      ∀ name, (twins.exports ⟨0⟩).lookup name ≠ some (.field 1) := by
  have facts : ((Request.played twins moored).registries.size,
      ((Request.played twins moored).registry ⟨0⟩).handle? ⟨0⟩,
      ((Request.played twins moored).heap.module? ⟨4⟩).map fun contents =>
        contents.globals.lookup "Twin",
      ((Request.played twins twinning).heap.wrapper? ⟨6⟩).map fun found => found.2.host) =
        (1, none, some none, some ⟨0⟩) := by cbv
  simp only [Prod.mk.injEq] at facts
  obtain ⟨registries, unknown, globals, host⟩ := facts
  obtain ⟨contents, defined, free⟩ := Option.map_eq_some_iff.mp globals
  obtain ⟨⟨content, bridged⟩, wrapper, same⟩ := Option.map_eq_some_iff.mp host
  have before := Session.exports_first_come honest_twins (playable_moored twins).session
  have after := Session.exports_first_come honest_twins playable_twinning.session
  constructor
  · refine before.accepts twinned ⟨0⟩ contents rfl (fun code given => by cases given) (by decide) ?_
      unknown (by decide) defined free fun inner nests => ?_
    · show 0 < (Request.played twins moored).registries.size
      rw [registries]
      exact Nat.zero_lt_one
    · obtain ⟨field, member, held⟩ := nests
      have declared : field ∈ Program.exportedFields twin := member
      have listed : Program.exportedFields twin =
        [(⟨"fooBar", number, true⟩, 0), (⟨"foo_bar", number, true⟩, 1)] := rfl
      rw [listed] at declared
      simp only [List.mem_cons, List.not_mem_nil, or_false] at declared
      rcases declared with rfl | rfl <;> cases held
  · refine ⟨content, bridged, Request.kept twins twinning, wrapper, ?_, fun name found => ?_⟩
    · have offered := after.offers ⟨6⟩ content bridged wrapper "foo_bar"
      rw [show bridged.host = ⟨0⟩ from same] at offered
      exact offered
    · have first := (after.first ⟨0⟩ [("foo_bar", .field 0)] "foo_bar" (.field 1)
        [("foo_bar", .method 0)] (by cbv) name).mp found
      exact first.2 List.mem_cons_self

open Figures in
set_option maxRecDepth 10000 in
/-- Twins are registered although three exports have one name, and only the first one is found.
Before that, the dict for a twin has one entry for two exported fields. -/
theorem Figures.twins_collapse :
    let before := Request.played twins moored
    let shown := (Encode.value twins ⟨0⟩ (.struct ⟨0⟩) (.struct [.int 1, .int 2])).run before
    ((twinned.run twins).run before).1 = .ok ⟨5⟩ ∧
      twins.exports ⟨0⟩ =
        [("foo_bar", .field 0), ("foo_bar", .field 1), ("foo_bar", .method 0)] ∧
      (twins.exports ⟨0⟩).lookup "foo_bar" = some (.field 0) ∧
      (Program.exportedFields (twins.struct ⟨0⟩)).length = 2 ∧
      shown.1 = .ok ⟨9⟩ ∧ (shown.2.heap.dict? ⟨9⟩).map Dict.size = some 1 := by
  refine ⟨?_, ?_, ?_, ?_, ?_, ?_⟩ <;> cbv

end HostBridge
