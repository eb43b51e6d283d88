import HostBridge.Object.Module
import HostBridge.Proofs.Ownership.Contract

/-!
# Contracts of containers and native objects

Containers take references of their own on what is put into them, and hand out
references of their own on what is taken out.  The same goes for the globals and
the state of a module, for capsules, functions and types.
-/

namespace HostBridge

namespace Dict

variable {dict : Dict}

theorem mem_references {ref : Ref} :
    ref ∈ dict.references ↔ ∃ entry ∈ dict.entries, ref = entry.key ∨ ref = entry.value := by
  simp [references]

theorem mem_references_of_get? {projection : Key} {value : Ref}
    (found : dict.get? projection = some value) : value ∈ dict.references := by
  obtain ⟨entry, present, rfl⟩ := Option.map_eq_some_iff.mp found
  rw [lookup?_eq] at present
  obtain ⟨position, _, there⟩ := Option.bind_eq_some_iff.mp present
  exact mem_references.mpr ⟨entry, List.mem_of_getElem? there, .inr rfl⟩

theorem mem_references_set {projection : Key} {key value ref : Ref}
    (member : ref ∈ (dict.set projection key value).references) :
    ref ∈ dict.references ∨ ref = key ∨ ref = value := by
  obtain ⟨entry, inside, same⟩ := mem_references.mp member
  rcases dict.position?_cases projection with absent | ⟨position, old, found, there⟩
  · obtain ⟨_, entries, _⟩ := insert_of_absent absent key value
    rw [set, entries, List.mem_append, List.mem_singleton] at inside
    rcases inside with among | rfl
    · exact .inl (mem_references.mpr ⟨entry, among, same⟩)
    · exact .inr same
  · obtain ⟨_, entries, _⟩ := insert_of_found found there key value
    rw [set, entries] at inside
    rcases List.mem_or_eq_of_mem_set inside with among | rfl
    · exact .inl (mem_references.mpr ⟨entry, among, same⟩)
    · rcases same with same | same
      · exact .inl (mem_references.mpr ⟨old, List.mem_of_getElem? there, .inl same⟩)
      · exact .inr (.inr same)

theorem mem_references_erase {projection : Key} {ref : Ref}
    (member : ref ∈ (dict.erase projection).references) : ref ∈ dict.references := by
  obtain ⟨entry, inside, same⟩ := mem_references.mp member
  rcases dict.position?_cases projection with absent | ⟨position, old, found, there⟩
  · rwa [erase, remove_of_absent absent] at member
  · obtain ⟨_, entries, _⟩ := remove_of_found found there
    rw [erase, entries] at inside
    exact mem_references.mpr ⟨entry, List.mem_of_mem_eraseIdx inside, same⟩

end Dict

namespace Heap

variable {heap : Heap} {ref : Ref}

theorem items?_eq_some {items : List Ref} (reading : heap.items? ref = some items) :
    heap.body ref = .list items ∨ heap.body ref = .tuple items := by
  unfold items? at reading
  split at reading
  · exact .inl (by simp_all)
  · exact .inr (by simp_all)
  · cases reading

theorem dict?_eq_some {table : Dict} (reading : heap.dict? ref = some table) :
    heap.body ref = .dict table := by
  unfold dict? at reading
  split at reading
  · simp_all
  · cases reading

theorem exists_capsule {payload : Payload} (reading : heap.capsule? ref = some payload) :
    ∃ name, heap.body ref = .capsule name payload := by
  unfold capsule? at reading
  split at reading
  · rename_i name content body
    rw [Option.some.injEq] at reading
    exact ⟨name, by rw [body, reading]⟩
  · cases reading

theorem module?_eq_some {contents : ModuleBody} (reading : heap.module? ref = some contents) :
    heap.body ref = .module contents := by
  unfold module? at reading
  split at reading
  · simp_all
  · cases reading

end Heap

namespace Op

variable {program : Program} {touch : Permission} {world : World} {ref : Ref}

/-! ## Lists -/

theorem runs_item (ref : Ref) (index : Nat) :
    Runs program touch (item ref index) world 0 (fun item => {item}) fun _ _ => True := by
  refine .assuming fun frame sound => .heap_bind ?_
  cases reading : world.heap.items? ref with
  | none => exact .raise _
  | some items =>
    dsimp only
    cases found : items[index]? with
    | none => exact .raise _
    | some item =>
      have used : item.place < world.heap.size := by
        refine sound.used_of_body ref ?_
        rcases Heap.items?_eq_some reading with body | body <;>
          simpa [body, Body.references] using List.mem_of_getElem? found
      exact (runs_retain used).weaken fun _ _ _ _ => trivial

/-- New contents for an object that is read as something. -/
theorem runs_replace_body {body new : Body} (reading : world.heap.body ref = body)
    (something : body ≠ .none) (touched : touch body)
    (becomes : body.Becomes program world.heap new)
    (used : ∀ inner ∈ new.references, inner.place < world.heap.size) :
    Runs program touch (change (·.replace ref new)) world 0 (fun _ => 0) fun _ _ => True := by
  obtain ⟨cell, there, rfl⟩ := Heap.exists_cell_of_body reading something
  exact runs_replace there touched becomes used

theorem runs_setItem (free : ∀ body, touch body) {index : Nat} {value : Ref}
    (used : value.place < world.heap.size) :
    Runs program touch (setItem ref index value) world 0 (fun _ => 0)
      fun _ _ => True := by
  refine .assuming fun frame sound => .heap_bind ?_
  cases reading : world.heap.body ref with
  | list items =>
    dsimp only
    split
    · refine runs_replace_body reading (by simp) (free _) (.list _ _) fun inner member => ?_
      rcases List.mem_or_eq_of_mem_set member with old | rfl
      · exact sound.used_of_body ref (by simpa [reading, Body.references] using old)
      · exact used
    · exact .raise _
  | _ => exact .raise _

theorem runs_append (free : ∀ body, touch body) {value : Ref}
    (used : value.place < world.heap.size) :
    Runs program touch (append ref value) world 0 (fun _ => 0) fun _ _ => True := by
  refine .assuming fun frame sound => .heap_bind ?_
  cases reading : world.heap.body ref with
  | list items =>
    refine runs_replace_body reading (by simp) (free _) (.list _ _) fun inner member => ?_
    rcases List.mem_append.mp member with old | new
    · exact sound.used_of_body ref (by simpa [reading, Body.references] using old)
    · rw [List.mem_singleton] at new
      rwa [new]
  | _ => exact .raise _

/-! ## Dicts -/

theorem run_dict (ref : Ref) (world : World) :
    (dict ref).run world = (match world.heap.dict? ref with
      | some table => .ok table
      | none => .error (.raised (.expectedDict (world.heap.typeName ref))), world) := by
  rw [dict, Operation.run_bind_of_ok (run_heap world)]
  cases world.heap.dict? ref <;> rfl

theorem run_key (ref : Ref) (world : World) :
    (key ref).run world = ((world.heap.key ref).mapError .raised, world) := by
  rw [key, Operation.run_bind_of_ok (run_heap world), run_ofExcept]

/-- Reading a dict, then an operation. -/
theorem Runs.dict_bind {α : Type} {next : Dict → Op α} {given : α → Multiset Ref}
    {post : α → World → Prop}
    (later : ∀ table, world.heap.body ref = .dict table →
      Runs program touch (next table) world 0 given post) :
    Runs program touch (dict ref >>= next) world 0 given post := by
  cases reading : world.heap.dict? ref with
  | none => exact .of_error (by
      rw [Operation.run_bind_of_error (by rw [run_dict, reading])])
  | some table =>
    exact .look_bind (by rw [run_dict, reading]) (later table (Heap.dict?_eq_some reading))

/-- Projecting a key, then an operation. -/
theorem Runs.key_bind {α : Type} {next : Key → Op α} {given : α → Multiset Ref}
    {post : α → World → Prop}
    (later : ∀ projection, Runs program touch (next projection) world 0 given post) :
    Runs program touch (key ref >>= next) world 0 given post := by
  cases reading : world.heap.key ref with
  | error exception => exact .of_error (by
      rw [Operation.run_bind_of_error (by rw [run_key, reading]; rfl)])
  | ok projection => exact .look_bind (by rw [run_key, reading]; rfl) (later projection)

theorem runs_dictGet (name : Ref) :
    Runs program touch (dictGet ref name) world 0 (fun value => value.toList)
      fun _ _ => True := by
  refine .assuming fun frame sound => .dict_bind fun table reading => .key_bind fun projection => ?_
  refine (runs_retainOption fun value found => ?_).weaken fun _ _ _ _ => trivial
  refine sound.used_of_body ref ?_
  simpa [reading, Body.references] using Dict.mem_references_of_get? found

theorem runs_dictGetText (name : String) :
    Runs program touch (dictGetText ref name) world 0 (fun value => value.toList)
      fun _ _ => True := by
  refine .assuming fun frame sound => .heap_bind ?_
  refine (runs_retainOption fun value found => ?_).weaken fun _ _ _ _ => trivial
  obtain ⟨table, reading, present⟩ := Option.bind_eq_some_iff.mp found
  refine sound.used_of_body ref ?_
  simpa [Heap.dict?_eq_some reading, Body.references] using Dict.mem_references_of_get? present

theorem runs_dictSet (free : ∀ body, touch body) {name value : Ref}
    (nameUsed : name.place < world.heap.size)
    (valueUsed : value.place < world.heap.size) :
    Runs program touch (dictSet ref name value) world 0 (fun _ => 0)
      fun _ _ => True := by
  refine .assuming fun frame sound => .dict_bind fun table reading => .key_bind fun projection => ?_
  refine runs_replace_body reading (by simp) (free _) (.dict _ _) fun inner member => ?_
  rcases Dict.mem_references_set member with old | rfl | rfl
  · exact sound.used_of_body ref (by simpa [reading, Body.references] using old)
  · exact nameUsed
  · exact valueUsed

theorem runs_dictErase (free : ∀ body, touch body) (name : Ref) :
    Runs program touch (dictErase ref name) world 0 (fun value => {value})
      fun _ _ => True := by
  refine .assuming fun frame sound => .dict_bind fun table reading => .key_bind fun projection => ?_
  cases found : table.get? projection with
  | none => exact .heap_bind (.raise _)
  | some value =>
    have used : ∀ inner ∈ table.references, inner.place < world.heap.size := fun inner member =>
      sound.used_of_body ref (by simpa [reading, Body.references] using member)
    have valueUsed := used value (Dict.mem_references_of_get? found)
    have reading' : (world.retain value).heap.body ref = .dict table :=
      (Heap.body_congr (world.heap.body_cell?_retain value ref)).trans reading
    obtain ⟨cell, there, body⟩ := Heap.exists_cell_of_body reading' (by simp)
    refine .path_bind (run_retain world value) (Path.retain valueUsed) fun leads => ?_
    refine .path_bind (run_change _ _) ?_ fun _ => .pure (zero_add _) trivial
    refine .replace there (free _) ?_ fun inner member => leads.used ?_
    · rw [body]
      exact .dict _ _
    · exact used inner (Dict.mem_references_erase member)

/-- What a dict is made of are the keys and values that it is made from. -/
theorem mem_references_dictOf {heap : Heap} {pairs : List (Ref × Ref)} {table : Dict}
    (made : dictOf heap pairs = .ok table) {ref : Ref} (member : ref ∈ table.references) :
    ref ∈ pairs.flatMap fun (key, value) => [key, value] := by
  suffices general : ∀ start : Dict, pairs.foldlM (fun table (name, value) => do
      return Dict.set table (← heap.key name) name value) start = .ok table →
        ref ∈ start.references ∨ ref ∈ pairs.flatMap fun (key, value) => [key, value] by
    rcases general .empty made with old | new
    · cases old
    · exact new
  clear made
  induction pairs with
  | nil =>
    intro start made
    rw [List.foldlM_nil] at made
    cases made
    exact .inl member
  | cons pair rest ih =>
    obtain ⟨name, value⟩ := pair
    intro start made
    rw [List.foldlM_cons] at made
    dsimp only at made
    cases projected : heap.key name with
    | error exception =>
      rw [projected] at made
      cases made
    | ok projection =>
      rw [projected] at made
      rw [List.flatMap_cons, List.mem_append]
      rcases ih _ made with old | new
      · rcases Dict.mem_references_set old with before | same
        · exact .inl before
        · exact .inr (.inl (by simpa using same))
      · exact .inr (.inr new)

theorem runs_createDict {pairs : List (Ref × Ref)}
    (used : ∀ inner ∈ pairs.flatMap fun (key, value) => [key, value],
      inner.place < world.heap.size) :
    Runs program touch (createDict pairs) world 0 (fun dict => {dict}) fun _ _ => True := by
  refine .heap_bind (.ofExcept_bind fun table made => ?_)
  refine runs_create trivial fun inner member => used inner ?_
  cases result : dictOf world.heap pairs with
  | error exception =>
    rw [result] at made
    cases made
  | ok table' =>
    rw [result] at made
    cases made
    exact mem_references_dictOf result member

/-- Making objects one after the other, none of which can fail. -/
theorem path_mapM {item : Type} {make : item → Op Ref} {items : List item}
    (each : ∀ one ∈ items, ∀ middle, World.Leads program touch world middle →
      ∃ ref after, (make one).run middle = (.ok ref, after) ∧
        ∀ held, Path program touch middle held after (held + {ref})) :
    ∃ refs after, (items.mapM make).run world = (.ok refs, after) ∧
      ∀ held, Path program touch world held after (held + refs) := by
  induction items generalizing world with
  | nil => exact ⟨[], world, rfl, fun held => by simpa using Path.refl world held⟩
  | cons one rest ih =>
    obtain ⟨ref, middle, made, path⟩ := each one (by simp) world (.refl _)
    have leads : World.Leads program touch world middle := ⟨_, _, path 0⟩
    obtain ⟨refs, after, rest', path'⟩ := ih fun other member final leads' =>
      each other (by simp [member]) final (leads.trans leads')
    refine ⟨ref :: refs, after, ?_, fun held => ?_⟩
    · rw [List.mapM_cons, Operation.run_bind_of_ok made, Operation.run_bind_of_ok rest']
      rfl
    · rw [Tally.coe_cons, ← add_assoc]
      exact (path held).trans (path' _)

theorem runs_dictItems (ref : Ref) :
    Runs program touch (dictItems ref) world 0 (fun items => {items}) fun _ _ => True := by
  refine .assuming fun frame sound => .dict_bind fun table reading => ?_
  have each : ∀ entry ∈ table.entries, ∀ middle, World.Leads program touch world middle →
      ∃ pair after, (create (.tuple [entry.key, entry.value])).run middle = (.ok pair, after) ∧
        ∀ held, Path program touch middle held after (held + {pair}) := by
    intro entry among middle leads
    refine ⟨_, _, run_create middle _, fun held => .create trivial fun inner member => ?_⟩
    refine leads.used (sound.used_of_body ref ?_)
    rw [reading]
    exact Dict.mem_references.mpr ⟨entry, among, by simpa [Body.references] using member⟩
  obtain ⟨pairs, after, made, path⟩ := path_mapM each
  have made' := path 0
  rw [zero_add] at made'
  exact .path_bind made made' fun _ => runs_place trivial

/-! ## Modules -/

theorem runs_createModule (name doc : String) :
    Runs program touch (createModule name doc) world 0 (fun module => {module})
      fun _ _ => True :=
  runs_create trivial fun _ member => nomatch member

theorem run_module (ref : Ref) (world : World) :
    (module ref).run world = (match world.heap.module? ref with
      | some contents => .ok contents
      | none => .error (.raised (.expectedModule (world.heap.typeName ref))), world) := by
  rw [module, Operation.run_bind_of_ok (run_heap world)]
  cases world.heap.module? ref <;> rfl

/-- Reading a module, then an operation. -/
theorem Runs.module_bind {α : Type} {next : ModuleBody → Op α} {given : α → Multiset Ref}
    {post : α → World → Prop}
    (later : ∀ contents, world.heap.body ref = .module contents →
      Runs program touch (next contents) world 0 given post) :
    Runs program touch (module ref >>= next) world 0 given post := by
  cases reading : world.heap.module? ref with
  | none => exact .of_error (by
      rw [Operation.run_bind_of_error (by rw [run_module, reading])])
  | some contents =>
    exact .look_bind (by rw [run_module, reading]) (later contents (Heap.module?_eq_some reading))

section

variable (modules : ∀ contents, touch (.module contents))

include modules

theorem runs_addObject {name : String} {value : Ref} (used : value.place < world.heap.size) :
    Runs program touch (addObject ref name value) world 0 (fun _ => 0) fun _ _ => True := by
  refine .assuming fun frame sound => .module_bind fun contents reading => ?_
  split
  · exact .raise _
  · refine runs_replace_body reading (by simp) (modules _) (.module (.of_state rfl rfl))
      fun inner member => ?_
    rw [Body.references, List.map_append, List.mem_append, List.mem_append] at member
    rcases member with (old | new) | state
    · refine sound.used_of_body ref ?_
      rw [reading]
      exact List.mem_append_left _ old
    · simp only [List.map_cons, List.map_nil, List.mem_singleton] at new
      rwa [new]
    · refine sound.used_of_body ref ?_
      rw [reading]
      exact List.mem_append_right _ state

theorem runs_addFunction (definition : MethodDef) :
    Runs program touch (addFunction ref definition) world 0 (fun function => {function})
      fun _ _ => True := by
  refine .module_bind fun contents reading => ?_
  have made : Runs program touch (create (.function definition (.module ref))) world 0
      (fun function => {function}) fun _ _ => True :=
    runs_create trivial fun inner member => by simp [Body.references] at member
  refine made.bind fun function after _ _ => ?_
  refine .assuming fun frame sound => ?_
  have undone : Runs program touch
      ((addObject ref definition.name function).undoing (·.release function)) after {function}
      (fun _ => {function}) fun _ _ => True := by
    have used : function.place < after.heap.size := sound.used_of_held (by simp)
    have added : Runs program touch
        ((addObject ref definition.name function).undoing (·.release function)) after
        (0 + {function}) (fun _ => 0 + {function}) fun _ _ => True :=
      (runs_addObject modules used).undoing fun final => path_release final function
    rwa [zero_add] at added
  exact undone.bind fun _ _ _ _ => .pure rfl trivial

theorem runs_clearModule (ref : Ref) :
    Runs program touch (clearModule ref) world 0 (fun _ => 0) fun _ _ => True := by
  refine .assuming fun frame sound => ?_
  unfold clearModule
  cases reading : world.heap.module? ref with
  | none =>
    have same : (change fun world : World => match world.heap.module? ref with
        | some contents => world.replace ref (.module { contents with globals := [] })
        | none => world).run world = (.ok (), world) := by
      rw [run_change, reading]
    exact .of_ok same (.refl _ _) trivial
  | some contents =>
    have body := Heap.module?_eq_some reading
    obtain ⟨cell, there, same⟩ := Heap.exists_cell_of_body body (by simp)
    refine .of_ok (by rw [run_change, reading]) ?_ trivial
    refine .replace there (by rw [same]; exact modules _)
      (by rw [same]; exact .module (.of_state rfl rfl)) ?_
    intro inner member
    refine sound.used_of_body ref ?_
    rw [body]
    exact List.mem_append_right _ member

theorem runs_setModuleState {state : Payload}
    (used : ∀ inner ∈ state.references, inner.place < world.heap.size) :
    Runs program touch (setModuleState ref state) world 0 (fun _ => 0) fun _ _ => True := by
  refine .assuming fun frame sound => .module_bind fun contents reading => ?_
  split
  · exact .raise _
  · rename_i unset
    have continues : contents.Continues { contents with state := some state } := by
      refine ⟨rfl, fun old given => ?_⟩
      rw [given] at unset
      exact absurd rfl unset
    refine runs_replace_body reading (by simp) (modules _) (.module continues)
      fun inner member => ?_
    rcases List.mem_append.mp member with old | new
    · refine sound.used_of_body ref ?_
      rw [reading]
      exact List.mem_append_left _ old
    · exact used inner new

end

/-! ## Functions, types and instances -/

theorem runs_createFunction {definition : MethodDef} {self : Ref}
    (used : self.place < world.heap.size) :
    Runs program touch (createFunction definition self) world 0 (fun function => {function})
      fun _ _ => True := by
  refine runs_create trivial fun inner member => ?_
  rw [Body.references, List.mem_singleton] at member
  rwa [member]

theorem runs_functionOwner {owner : Owner}
    (used : ∀ ref, owner = .bound ref → ref.place < world.heap.size) :
    Runs program touch (functionOwner owner) world 0 (fun self => {self}) fun _ _ => True := by
  cases owner with
  | bound ref => exact (runs_retain (used ref rfl)).weaken fun _ _ _ _ => trivial
  | module ref =>
    refine .heap_bind ?_
    split
    · rename_i holds
      obtain ⟨cell, there⟩ := Option.isSome_iff_exists.mp holds
      exact (runs_retain (Heap.place_lt_size there)).weaken fun _ _ _ _ => trivial
    · exact .raise _

theorem runs_createType {shape : TypeBody} (plain : (Body.type shape).Plain program)
    (used : ∀ inner ∈ (Body.type shape).references, inner.place < world.heap.size) :
    Runs program touch (createType shape) world 0 (fun type => {type}) fun _ _ => True :=
  .note_bind (runs_create plain used)

theorem runs_createInstance (type : Ref) :
    Runs program touch (createInstance type) world 0 (fun ref => {ref}) fun _ _ => True := by
  refine .heap_bind ?_
  split
  · rename_i isType
    refine runs_create trivial fun inner member => ?_
    simp only [Body.references, Option.map_none, Option.getD_none, List.nil_append,
      List.mem_singleton] at member
    subst member
    have something : world.heap.body inner ≠ .none := by
      intro nothing
      simp [Heap.isType, nothing] at isType
    obtain ⟨cell, there, _⟩ := Heap.exists_cell_of_body rfl something
    exact Heap.place_lt_size there
  · exact .raise _

theorem runs_setInstanceState (free : ∀ body, touch body) {state : Payload}
    (foreign : ∀ registry held, state ≠ .wrapper registry held)
    (used : ∀ inner ∈ state.references, inner.place < world.heap.size) :
    Runs program touch (setInstanceState ref state) world 0 (fun _ => 0)
      fun _ _ => True := by
  refine .assuming fun frame sound => .heap_bind ?_
  cases reading : world.heap.body ref with
  | «instance» type old =>
    cases old with
    | none =>
      refine runs_replace_body reading (by simp) (free _) (.state type foreign) ?_
      intro inner member
      rcases List.mem_append.mp member with new | shape
      · exact used inner new
      · refine sound.used_of_body ref ?_
        rw [reading]
        exact List.mem_append_right _ shape
    | some _ => exact .raise _
  | _ => exact .raise _

end Op

end HostBridge
