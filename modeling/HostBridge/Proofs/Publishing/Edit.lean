import HostBridge.Bridge.Export
import HostBridge.Proofs.Ownership.Lending
import HostBridge.Proofs.Ownership.Container

/-!
# Edits of modules

Publishing makes an object and then changes what one module holds.  What the
module held before is still held, so no object goes away on the way: the objects
that were there stay as they are, but for the module and for how often they are
counted.

`Heap.Edits` says this of two heaps, for one change of the contents of the module.
Edits can be made one after the other.
-/

namespace HostBridge

/-- The contents of an object after a change of what modules hold. -/
def Body.edited (edit : ModuleBody → ModuleBody) : Body → Body
  | .module contents => .module (edit contents)
  | body => body

@[simp]
theorem Body.edited_id (body : Body) : body.edited id = body := by
  cases body <;> rfl

@[simp]
theorem Body.edited_edited (first second : ModuleBody → ModuleBody) (body : Body) :
    (body.edited first).edited second = body.edited (second ∘ first) := by
  cases body <;> rfl

/-! ## Counting without giving up -/

namespace World

variable {world : World}

/-- Taking references changes nothing but the counts. -/
theorem cell?_retainAll (world : World) (refs : List Ref) (ref : Ref) :
    (world.retainAll refs).heap.cell? ref =
      (world.heap.cell? ref).map fun cell => { cell with count := cell.count + refs.count ref } := by
  induction refs generalizing world with
  | nil => cases present : world.heap.cell? ref <;> simp [retainAll, present]
  | cons taken refs ih =>
    show ((world.retain taken).retainAll refs).heap.cell? ref = _
    rw [ih, retain]
    dsimp only
    cases there : world.heap.cell? taken with
    | none =>
      rw [Heap.retain_of_gone there]
      by_cases same : ref = taken
      · rw [same, there]
        rfl
      · rw [List.count_cons_of_ne (Ne.symm same)]
    | some cell =>
      rw [Heap.retain_of_cell there, Heap.cell?_put _ there]
      by_cases same : ref = taken
      · subst same
        rw [if_pos rfl, there, List.count_cons_self]
        simp [Nat.add_assoc, Nat.add_comm 1]
      · rw [if_neg same, List.count_cons_of_ne (Ne.symm same)]

theorem surroundings_retainAll (world : World) (refs : List Ref) :
    (world.retainAll refs).surroundings = world.surroundings :=
  observe_retainAll surroundings (fun _ _ => rfl) world refs

end World

/-! ## Edits -/

/-- Every object that is there is counted. -/
def Heap.Counted (heap : Heap) : Prop := ∀ ref cell, heap.cell? ref = some cell → 0 < cell.count

/-- An object that keeps the references that it had is changed, and nothing goes away. -/
theorem World.replace_of_surplus {world : World} (counted : world.heap.Counted) {ref : Ref}
    {cell : Cell} (there : world.heap.cell? ref = some cell) {body : Body}
    (more : ∀ other, cell.body.references.count other ≤ body.references.count other) :
    (∀ other, (world.replace ref body).heap.cell? other =
      (world.heap.cell? other).map fun old =>
        ⟨old.count + body.references.count other - cell.body.references.count other,
          if other = ref then body else old.body⟩) ∧
    (world.replace ref body).heap.size = world.heap.size ∧
    (world.replace ref body).surroundings = world.surroundings := by
  generalize retained : world.retainAll body.references = middle
  have cells : ∀ other, middle.heap.cell? other = (world.heap.cell? other).map fun old =>
      { old with count := old.count + body.references.count other } := by
    rw [← retained]
    exact world.cell?_retainAll _
  have found := cells ref
  rw [there, Option.map_some] at found
  -- The object takes its new references before it gives up the old ones.
  have changed : ∀ other, (middle.heap.setBody ref body).cell? other =
      (world.heap.cell? other).map fun old =>
        ⟨old.count + body.references.count other, if other = ref then body else old.body⟩ := by
    intro other
    rw [Heap.setBody_of_cell body found, Heap.cell?_put _ found]
    by_cases here : other = ref
    · rw [if_pos here, here, there, Option.map_some, if_pos rfl]
    · rw [if_neg here, cells]
      simp only [if_neg here]
  obtain ⟨final, size, surroundings⟩ := World.releaseAll_of_surplus
    { middle with heap := middle.heap.setBody ref body } cell.body.references
    fun other _ later present => by
      dsimp only at present
      rw [changed] at present
      obtain ⟨old, inside, rfl⟩ := Option.map_eq_some_iff.mp present
      exact Nat.lt_of_le_of_lt (more other)
        (Nat.lt_add_of_pos_left (counted other old inside))
  rw [World.replace, Heap.body_eq there, retained]
  refine ⟨fun other => ?_, ?_, ?_⟩
  · rw [final]
    dsimp only
    rw [changed, Option.map_map]
    rfl
  · rw [size]
    dsimp only
    rw [Heap.size_setBody, ← retained, World.size_retainAll]
  · rw [surroundings, ← retained]
    exact world.surroundings_retainAll _

/-- Objects have been added and one module has been edited; what else was there is
there with the contents that it had. -/
structure Heap.Edits (before after : Heap) (module : Ref) (edit : ModuleBody → ModuleBody) :
    Prop where
  size : before.size ≤ after.size
  kept : ∀ ref : Ref, ref.place < before.size →
    (after.cell? ref).map Cell.body = (before.cell? ref).map fun cell =>
      if ref = module then cell.body.edited edit else cell.body
  counted : before.Counted → after.Counted
  /-- No module has been made. -/
  modules : ∀ ref, (after.module? ref).isSome → (before.module? ref).isSome

namespace Heap.Edits

variable {first second third : Heap} {module : Ref} {edit edit' : ModuleBody → ModuleBody}

theorem refl (heap : Heap) (module : Ref) : heap.Edits heap module id where
  size := le_refl _
  kept ref _ := by simp only [Body.edited_id, ite_self]
  counted counted := counted
  modules _ there := there

theorem trans (front : first.Edits second module edit) (back : second.Edits third module edit') :
    first.Edits third module (edit' ∘ edit) where
  size := front.size.trans back.size
  kept ref used := by
    have middle := front.kept ref used
    rw [back.kept ref (Nat.lt_of_lt_of_le used front.size)]
    cases there : first.cell? ref with
    | none =>
      rw [there, Option.map_none, Option.map_eq_none_iff] at middle
      rw [middle]
      rfl
    | some cell =>
      rw [there, Option.map_some] at middle
      obtain ⟨later, found, same⟩ := Option.map_eq_some_iff.mp middle
      rw [found, Option.map_some, Option.map_some, Option.some.injEq]
      by_cases here : ref = module
      · rw [if_pos here] at same ⊢
        rw [if_pos here, same, Body.edited_edited]
      · rw [if_neg here] at same ⊢
        rw [if_neg here, same]
  counted counted := back.counted (front.counted counted)
  modules ref there := front.modules ref (back.modules ref there)

/-- It does not matter what an edit would do to other contents than those of the module. -/
theorem congr (edits : first.Edits second module edit)
    (same : ∀ contents, first.module? module = some contents → edit contents = edit' contents) :
    first.Edits second module edit' where
  size := edits.size
  kept ref used := by
    rw [edits.kept ref used]
    cases there : first.cell? ref with
    | none => rfl
    | some cell =>
      rw [Option.map_some, Option.map_some, Option.some.injEq]
      by_cases here : ref = module
      · subst here
        rw [if_pos rfl, if_pos rfl]
        cases body : cell.body with
        | module contents =>
          have reading : first.module? ref = some contents := by
            rw [Heap.module?, Heap.body_eq there, body]
          rw [Body.edited, Body.edited, same contents reading]
        | _ => rfl
      · rw [if_neg here, if_neg here]
  counted := edits.counted
  modules := edits.modules

/-- Other objects have the contents that they had. -/
theorem body (edits : first.Edits second module edit) {ref : Ref} (used : ref.place < first.size)
    (other : ref ≠ module) : second.body ref = first.body ref := by
  refine Heap.body_congr ?_
  simpa only [if_neg other] using edits.kept ref used

/-- An object that holds no names has the contents that it had. -/
theorem body_of_constant (edits : first.Edits second module edit) {ref : Ref} {contents : Body}
    (reading : first.body ref = contents) (something : contents ≠ .none)
    (constant : contents.edited edit = contents) : second.body ref = contents := by
  obtain ⟨cell, there, same⟩ := Heap.exists_cell_of_body reading something
  have kept := edits.kept ref (Heap.place_lt_size there)
  rw [there, Option.map_some, same, constant, ite_self] at kept
  obtain ⟨later, found, contents'⟩ := Option.map_eq_some_iff.mp kept
  rw [Heap.body_eq found, contents']

/-- The module has been edited. -/
theorem module? (edits : first.Edits second module edit) {contents : ModuleBody}
    (reading : first.module? module = some contents) :
    second.module? module = some (edit contents) := by
  obtain ⟨cell, there, same⟩ := Heap.exists_cell_of_body (Heap.module?_eq_some reading) (by simp)
  have kept := edits.kept module (Heap.place_lt_size there)
  rw [there, Option.map_some, if_pos rfl, same] at kept
  obtain ⟨later, found, contents'⟩ := Option.map_eq_some_iff.mp kept
  unfold Heap.module?
  rw [Heap.body_eq found, contents']
  rfl

/-- A new object leaves the others as they are. -/
theorem push (heap : Heap) (module : Ref) {body : Body}
    (plain : ∀ contents, body ≠ .module contents) :
    heap.Edits (heap.push body) module id where
  size := by
    rw [Heap.size_push]
    exact Nat.le_succ _
  kept ref used := by
    have old : ref ≠ heap.next := by
      rintro rfl
      exact absurd used (Nat.lt_irrefl _)
    rw [Heap.cell?_push, if_neg old]
    simp only [Body.edited_id, ite_self]
  counted counted ref cell there := by
    rw [Heap.cell?_push] at there
    split at there
    · cases there
      exact Nat.zero_lt_one
    · exact counted ref cell there
  modules ref there := by
    obtain ⟨contents, reading⟩ := Option.isSome_iff_exists.mp there
    have found := Heap.module?_eq_some reading
    have old : ref ≠ heap.next := by
      rintro rfl
      rw [Heap.body_eq (Heap.cell?_push_next heap body)] at found
      exact plain contents found
    rw [Heap.body, Heap.cell?_push, if_neg old] at found
    have same : heap.body ref = .module contents := found
    rw [Heap.module?, same]
    rfl

theorem retainAll (world : World) (module : Ref) (refs : List Ref) :
    world.heap.Edits (world.retainAll refs).heap module id where
  size := Nat.le_of_eq (world.size_retainAll refs).symm
  kept ref used := by
    rw [World.cell?_retainAll, Option.map_map]
    simp only [Body.edited_id, ite_self]
    rfl
  counted counted ref cell there := by
    rw [World.cell?_retainAll] at there
    obtain ⟨old, found, rfl⟩ := Option.map_eq_some_iff.mp there
    exact Nat.lt_of_lt_of_le (counted ref old found) (Nat.le_add_right _ _)
  modules ref there := by
    rwa [Heap.module?, Heap.body_congr (world.body_cell?_retainAll refs ref)] at there

theorem create (world : World) (module : Ref) {body : Body}
    (plain : ∀ contents, body ≠ .module contents) :
    world.heap.Edits (world.create body).2.heap module id :=
  (retainAll world module body.references).trans (push _ module plain)

/-- A module that keeps the references that it had is edited. -/
theorem replace {world : World} (counted : world.heap.Counted) {contents : ModuleBody}
    (reading : world.heap.module? module = some contents)
    (more : ∀ ref, (Body.module contents).references.count ref ≤
      (Body.module (edit contents)).references.count ref) :
    world.heap.Edits (world.replace module (.module (edit contents))).heap module edit ∧
      (world.replace module (.module (edit contents))).surroundings = world.surroundings := by
  obtain ⟨cell, there, body⟩ :=
    Heap.exists_cell_of_body (Heap.module?_eq_some reading) (by simp)
  rw [← body] at more
  obtain ⟨cells, size, surroundings⟩ := World.replace_of_surplus counted there more
  refine ⟨⟨Nat.le_of_eq size.symm, fun ref used => ?_, fun _ ref later found => ?_,
    fun ref found => ?_⟩, surroundings⟩
  · rw [cells, Option.map_map]
    cases present : world.heap.cell? ref with
    | none => rfl
    | some old =>
      by_cases here : ref = module
      · rw [here, there, Option.some.injEq] at present
        simp [here, ← present, body, Body.edited]
      · simp [here]
  · rw [cells] at found
    obtain ⟨old, present, rfl⟩ := Option.map_eq_some_iff.mp found
    have positive := counted ref old present
    have fewer := more ref
    dsimp only
    omega
  · by_cases here : ref = module
    · rw [here, reading]
      rfl
    · have same : (world.replace module (.module (edit contents))).heap.body ref =
          world.heap.body ref := by
        refine Heap.body_congr ?_
        rw [cells, Option.map_map]
        simp only [if_neg here]
        rfl
      rwa [Heap.module?, same] at found

end Heap.Edits

/-! ## Names of a module -/

/-- A module that defines further names. -/
def ModuleBody.defining (names : List (String × Ref)) (contents : ModuleBody) : ModuleBody :=
  { contents with globals := contents.globals ++ names }

@[simp]
theorem ModuleBody.defining_nil : ModuleBody.defining [] = id := by
  funext contents
  simp [defining]

@[simp]
theorem ModuleBody.defining_comp (first second : List (String × Ref)) :
    ModuleBody.defining second ∘ ModuleBody.defining first =
      ModuleBody.defining (first ++ second) := by
  funext contents
  simp [defining]

theorem ModuleBody.references_defining (contents : ModuleBody) (names : List (String × Ref))
    (ref : Ref) : (Body.module contents).references.count ref ≤
      (Body.module (contents.defining names)).references.count ref := by
  simp only [Body.references, defining, List.map_append, List.count_append]
  omega

namespace Op

/-- A name is defined in a module that does not define it yet. -/
theorem run_addObject (world : World) (module : Ref) (name : String) (value : Ref) :
    (addObject module name value).run world =
      match world.heap.module? module with
      | none => (.error (.raised (.expectedModule (world.heap.typeName module))), world)
      | some contents =>
        if (contents.globals.lookup name).isSome then
          (.error (.raised (.nameTaken contents.name name)), world)
        else (.ok (), world.replace module (.module (contents.defining [(name, value)]))) := by
  rw [addObject, Operation.run_bind, run_module]
  cases world.heap.module? module with
  | none => rfl
  | some contents =>
    dsimp only
    split <;> rfl

/-- A new name is the only change to what was there. -/
theorem edits_addObject {world : World} (counted : world.heap.Counted) {module : Ref}
    {name : String} {value : Ref} {after : World}
    (ran : (addObject module name value).run world = (.ok (), after)) :
    (world.heap.module? module).isSome ∧
      world.heap.Edits after.heap module (ModuleBody.defining [(name, value)]) ∧
      after.surroundings = world.surroundings := by
  rw [run_addObject] at ran
  cases reading : world.heap.module? module with
  | none =>
    rw [reading] at ran
    cases ran
  | some contents =>
    rw [reading] at ran
    dsimp only at ran
    split at ran
    · cases ran
    · cases ran
      exact ⟨rfl, Heap.Edits.replace counted reading (contents.references_defining _)⟩

/-- Without the new name there is no change. -/
theorem addObject_of_raised {world : World} {module : Ref} {name : String} {value : Ref}
    {fault : Fault} {after : World}
    (ran : (addObject module name value).run world = (.error fault, after)) :
    after = world ∧ ∃ exception, fault = .raised exception := by
  rw [run_addObject] at ran
  cases reading : world.heap.module? module with
  | none =>
    rw [reading] at ran
    cases ran
    exact ⟨rfl, _, rfl⟩
  | some contents =>
    rw [reading] at ran
    dsimp only at ran
    split at ran
    · cases ran
      exact ⟨rfl, _, rfl⟩
    · cases ran

end Op

end HostBridge
