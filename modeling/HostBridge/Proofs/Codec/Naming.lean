import HostBridge.Proofs.Codec.Encoding
import HostBridge.Proofs.Dict.Overwriting
import HostBridge.Proofs.Wiring.Table

/-!
# Names in the dict of a struct

A struct that is not registered is shown as a dict of its exported fields, each under its name
in snake case.  Two declared names may have one snake case name.  Then the dict has one entry
for both fields, with the value of the later one, and the value of the earlier one is not shown
at all.
-/

namespace HostBridge

open Op

variable {program : Program} {registry : RegistryId} {world after : World} {held : Multiset Ref}

/-- The names under which the exported fields of a struct are shown. -/
def Program.fieldNames (program : Program) (id : StructId) : List String :=
  (exportedFields (program.struct id)).map fun (field, _) => Name.snake field.name

theorem Program.fieldNames_eq (program : Program) (id : StructId) :
    program.fieldNames id = ((program.struct id).fields.filter (·.exported)).map
      fun field => Name.snake field.name := by
  have plain : (exportedFields (program.struct id)).map Prod.fst =
      (program.struct id).fields.filter (·.exported) := by
    conv => rhs; rw [← List.zipIdx_map_fst 0 (program.struct id).fields, List.filter_map]
    rfl
  rw [← plain, List.map_map]
  rfl

/-! ## Keys -/

/-- The texts of the keys of pairs. -/
def Heap.Spells (heap : Heap) (pairs : List (Ref × Ref)) (names : List String) : Prop :=
  pairs.map (fun pair => heap.body pair.1) = names.map .text

namespace Heap.Spells

variable {heap later : Heap} {pairs : List (Ref × Ref)} {names : List String}

theorem cons (spells : heap.Spells pairs names) {key value : Ref} {name : String}
    (reading : heap.body key = .text name) :
    heap.Spells ((key, value) :: pairs) (name :: names) := by
  rw [Spells, List.map_cons, List.map_cons, reading, spells]

theorem reverse (spells : heap.Spells pairs names) : heap.Spells pairs.reverse names.reverse := by
  rw [Spells, List.map_reverse, List.map_reverse, spells]

theorem length (spells : heap.Spells pairs names) : pairs.length = names.length := by
  have same := congrArg List.length spells
  rwa [List.length_map, List.length_map] at same

/-- The key of a pair has a text. -/
theorem exists_text (spells : heap.Spells pairs names) {pair : Ref × Ref} (member : pair ∈ pairs) :
    ∃ name, heap.body pair.1 = .text name := by
  have among : heap.body pair.1 ∈ names.map Body.text := by
    rw [← spells]
    exact List.mem_map_of_mem member
  obtain ⟨name, _, reading⟩ := List.mem_map.mp among
  exact ⟨name, reading.symm⟩

theorem congr (spells : heap.Spells pairs names)
    (same : ∀ pair ∈ pairs, later.body pair.1 = heap.body pair.1) : later.Spells pairs names := by
  rw [Spells, List.map_congr_left same, spells]

/-- Texts are their own projections. -/
theorem hashed (spells : heap.Spells pairs names) :
    pairs.map (fun pair => heap.key pair.1) = (names.map Key.text).map .ok := by
  induction names generalizing pairs with
  | nil => rw [List.map_eq_nil_iff.mp spells]; rfl
  | cons name names ih =>
    obtain ⟨pair, pairs, rfl, reading, readings⟩ := List.map_eq_cons_iff.mp spells
    rw [List.map_cons, List.map_cons, List.map_cons, ih readings, Heap.key_of_text reading]

theorem grow {before after : World} (more : before.Extends after)
    (spells : before.heap.Spells pairs names) : after.heap.Spells pairs names :=
  spells.congr fun pair member => by
    obtain ⟨name, reading⟩ := spells.exists_text member
    rw [more.body reading (by simp), reading]

/-- Keys that are held on to keep their texts. -/
theorem kept {touch : Permission} {before after : World} {held left frame : Multiset Ref}
    (path : Path program touch before held after left)
    (sound : before.Sound program (held + frame)) (mild : ∀ body, touch body → ¬body.Lasting)
    (framed : ∀ pair ∈ pairs, pair.1 ∈ frame) (spells : before.heap.Spells pairs names) :
    after.heap.Spells pairs names :=
  spells.congr fun pair member => by
    obtain ⟨name, reading⟩ := spells.exists_text member
    exact (path.retains sound mild).same pair.1
      (.held (framed pair member) (by rw [reading]; trivial))

end Heap.Spells

namespace Encode

/-- The keys that are made for the exported fields have the names of the fields, in their order. -/
theorem spells_fields : ∀ (fields : List FieldDecl) (values : List HostValue)
    (done : List (Ref × Ref)) {names : List String} {pairs : List (Ref × Ref)}
    {world after : World}, world.Sound program (pairReferences done + held) →
    HostValue.fitsAll program (fields.map (·.type)) values = true →
    (∀ ref ∈ HostValue.referencesAll values, ref.place < world.heap.size) →
    world.heap.Spells done names →
    (Encode.fields program registry fields done values).run world = (.ok pairs, after) →
      after.heap.Spells pairs
        (names.reverse ++ (fields.filter (·.exported)).map fun field => Name.snake field.name)
  | [], [], done, names, pairs, world, after, _, _, _, spells, ran => by
    cases ran
    rw [List.filter_nil, List.map_nil, List.append_nil]
    exact spells.reverse
  | [], head :: tail, _, _, _, _, _, _, fit, _, _, _ => by cases fit
  | field :: rest, [], _, _, _, _, _, _, fit, _, _, _ => by cases fit
  | field :: rest, head :: tail, done, names, pairs, world, after, sound, fit, used, spells, ran => by
    simp only [List.map_cons, HostValue.fitsAll, Bool.and_eq_true] at fit
    simp only [HostValue.referencesAll, List.mem_append] at used
    rw [Encode.fields] at ran
    by_cases exported : field.exported = true
    · rw [if_pos exported] at ran
      have making : Runs program Permission.nothing
          (Encode.value program registry field.type head) world 0 (fun ref => {ref})
            fun _ _ => True :=
        runs_value field.type head fit.1 fun ref member => used ref (.inl member)
      have framed : world.Sound program (0 + (pairReferences done + held)) := by rwa [zero_add]
      rcases made : (Encode.value program registry field.type head).run world with
        ⟨result, middle⟩
      cases result with
      | error fault =>
        rw [Operation.run_bind_of_error (run_undoing_of_error made _)] at ran
        cases ran
      | ok ref =>
        rw [Operation.run_bind_of_ok (run_undoing_of_ok made _),
          Operation.run_bind_of_ok (run_place middle _)] at ran
        obtain ⟨path, _⟩ := making.ok framed made
        have soundMiddle := (path.frame _).sound framed
        -- The pairs that are done are held, so their keys are still what they were.
        have kept : middle.heap.Spells done names :=
          spells.kept path framed (fun _ touched => touched.elim) fun pair member =>
            Multiset.mem_add.mpr (.inl (List.mem_flatMap.mpr ⟨pair, member, by simp⟩))
        have plain : (Body.text (Name.snake field.name)).Plain program := trivial
        have named : Path program Permission.nothing middle
            ({ref} + (pairReferences done + held))
            (middle.place (.text (Name.snake field.name))).2
            ({ref} + (pairReferences done + held) + {middle.heap.next}) :=
          path_placeScalar plain rfl _
        have more : middle.Extends (middle.place (.text (Name.snake field.name))).2 := .place _ _
        have written : (middle.place (.text (Name.snake field.name))).2.heap.body
            middle.heap.next = .text (Name.snake field.name) :=
          Heap.body_eq (Heap.cell?_push_next middle.heap _)
        have soundNext := named.sound soundMiddle
        rw [show ({ref} + (pairReferences done + held) + {middle.heap.next} : Multiset Ref) =
          pairReferences ((middle.heap.next, ref) :: done) + held by
            rw [coe_pairReferences_cons]; abel] at soundNext
        have later := spells_fields rest tail ((middle.heap.next, ref) :: done) soundNext fit.2
          (fun ref member => Nat.lt_of_lt_of_le (used ref (.inr member))
            (path.grows.trans named.grows).places)
          ((kept.grow more).cons written) ran
        rw [List.reverse_cons, List.append_assoc] at later
        rw [List.filter_cons_of_pos exported]
        exact later
    · rw [if_neg exported] at ran
      rw [List.filter_cons_of_neg exported]
      exact spells_fields rest tail done sound fit.2 (fun ref member => used ref (.inr member))
        spells ran

/-- What is found under the names of pairs is the value that comes last. -/
theorem get?_setAll_texts {names : List String} {pairs : List (Ref × Ref)} (name : String) :
    (Dict.empty.setAll ((names.map Key.text).zip pairs)).get? (.text name) =
      (names.zip (pairs.map Prod.snd)).reverse.lookup name := by
  have lookup_text : ∀ items : List (String × Ref),
      (items.map fun item => (Key.text item.1, item.2)).lookup (.text name) = items.lookup name := by
    intro items
    induction items with
    | nil => rfl
    | cons item items ih =>
      rw [List.map_cons, List.lookup_cons, List.lookup_cons, ih]
      by_cases same : name = item.1
      · rw [same, beq_self_eq_true, beq_self_eq_true]
      · rw [beq_false_of_ne same, beq_false_of_ne fun equal => same (Key.text.inj equal)]
  have written : Dict.written ((names.map Key.text).zip pairs) =
      (names.zip (pairs.map Prod.snd)).map fun item => (Key.text item.1, item.2) := by
    induction names generalizing pairs with
    | nil => rfl
    | cons name names ih =>
      cases pairs with
      | nil => rfl
      | cons pair pairs =>
        rw [List.map_cons, List.map_cons, List.zip_cons_cons, List.zip_cons_cons, List.map_cons, ← ih]
        rfl
  rw [Dict.get?_setAll, Dict.get?_empty, Option.or_none, written, ← List.map_reverse, lookup_text]

/-- The dict of a struct has one entry for each name, with the last of the objects that were made
under it. -/
theorem names_of_struct (sound : world.Sound program held) {id : StructId}
    {values : List HostValue} {ref : Ref}
    (unregistered : (world.registry registry).handle? id = none)
    (fit : (HostValue.struct values).fits program (.struct id) = true)
    (used : ∀ ref ∈ (HostValue.struct values).references, ref.place < world.heap.size)
    (ran : (Encode.value program registry (.struct id) (.struct values)).run world =
      (.ok ref, after)) :
    ∃ pairs made table,
      (Encode.fields program registry (program.struct id).fields [] values).run world =
        (.ok pairs, made) ∧
      made.heap.Spells pairs (program.fieldNames id) ∧ after.heap.body ref = .dict table ∧
      (∀ name, table.get? (.text name) =
        ((program.fieldNames id).zip (pairs.map Prod.snd)).reverse.lookup name) ∧
      table.size = (program.fieldNames id).dedup.length := by
  rw [Encode.value, Operation.run_bind_of_ok (run_handle? registry id world), unregistered] at ran
  dsimp only at ran
  have framed : world.Sound program (pairReferences [] + held) := by
    rwa [show ((pairReferences [] : List Ref) : Multiset Ref) = 0 from rfl, zero_add]
  have listing : Runs program Permission.nothing
      (Encode.fields program registry (program.struct id).fields [] values) world
      (pairReferences []) (fun pairs => pairReferences pairs) fun _ _ => True :=
    runs_fields _ values [] fit used
  rcases listed : (Encode.fields program registry (program.struct id).fields [] values).run world
    with ⟨result, made⟩
  cases result with
  | error fault =>
    rw [Operation.run_bind_of_error listed] at ran
    cases ran
  | ok pairs =>
    rw [Operation.run_bind_of_ok listed] at ran
    obtain ⟨path, _⟩ := listing.ok framed listed
    have soundMade := (path.frame held).sound framed
    have started : world.heap.Spells [] [] := rfl
    have spells := spells_fields _ values [] framed fit used started listed
    rw [List.reverse_nil, List.nil_append, ← program.fieldNames_eq] at spells
    have placing : Runs program Permission.nothing (placeDict pairs) made _ _ _ :=
      runs_placeDict_table pairs
    obtain ⟨_, table, built, reading⟩ := placing.ok soundMade ran
    rw [dictOf_of_keys spells.hashed] at built
    cases built
    refine ⟨pairs, made, _, rfl, spells, reading, get?_setAll_texts, ?_⟩
    have enough : ((program.fieldNames id).map Key.text).length ≤ pairs.length := by
      rw [List.length_map, spells.length]
    rw [Dict.size_setAll_empty, List.map_fst_zip enough,
      List.dedup_map_of_injective fun _ _ => Key.text.inj, List.length_map]

/-- The dict has an entry for each exported field exactly if their names differ. -/
theorem length_dedup_iff {names : List String} :
    names.dedup.length = names.length ↔ names.Nodup := by
  constructor
  · intro all
    rw [← (List.dedup_sublist names).eq_of_length all]
    exact List.nodup_dedup names
  · intro distinct
    rw [List.dedup_eq_self.mpr distinct]

end Encode

end HostBridge
